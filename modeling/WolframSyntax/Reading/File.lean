import WolframSyntax.Reading.Step
import WolframSyntax.Token.Lexer

/-!
# Reading a file

A file is a sequence of expressions. An expression ends where the next word does not go on from
it, and a word that can neither go on nor begin an expression becomes an error of its own, so every
word finds its place. Only a token list without an end token cannot be read.
-/

namespace WolframSyntax

/-- A token list that lacks its end token. -/
structure UnendedStream where
  length : Nat

namespace UnendedStream

/-- The report of the failure. -/
def message (failure : UnendedStream) : String :=
  "Token stream ended without EOF after " ++ toString failure.length ++ " tokens"

end UnendedStream

/-- A file that is being read: what precedes the current expression, and that expression, if one
has been begun. -/
structure FileReading where
  children : List SyntaxTree
  current : Option Reading

namespace FileReading

/-- A file of which nothing has been read. -/
def empty : FileReading := ⟨[], none⟩

/-- The surroundings of the expressions of a file. -/
def surroundings (grammar : Grammar) : Surroundings := ⟨grammar, 0, false⟩

/-- The error node for a word that has no place in an expression. -/
def skipped (word : Word) : SyntaxTree :=
  let diagnostic : Diagnostic :=
    if word.token.kind = .error then .badToken word.token.text
    else .unexpectedToken word.token.text
  SyntaxTree.error diagnostic.message [word.leaf]

/-- The file with a word between two expressions: the word begins an expression or is skipped. -/
def beginWith (children : List SyntaxTree) (word : Word) : FileReading :=
  let children := children ++ word.leadLeaves
  match word.opening? with
  | some opening => ⟨children, some (Reading.begin [] opening word.token)⟩
  | none => ⟨children ++ [skipped word], none⟩

/-- The file with one more word. -/
def read (grammar : Grammar) (file : FileReading) (word : Word) : FileReading :=
  match file.current with
  | none => beginWith file.children word
  | some reading =>
    match reading.read (surroundings grammar) word with
    | .reading reading => ⟨file.children, some reading⟩
    | .finished outcome =>
      beginWith (file.children ++ (outcome.map Outcome.tree).toList) word

/-- The expressions of the file when its end is in view. -/
def finish (grammar : Grammar) (file : FileReading) (word : Word) : List SyntaxTree :=
  match file.current with
  | none => file.children
  | some reading =>
    match reading.read (surroundings grammar) word with
    | .reading _ => file.children
    | .finished outcome => file.children ++ (outcome.map Outcome.tree).toList

/-- The tree of a file with the given words, end word and tokens beyond the end. -/
def tree (grammar : Grammar) (words : List Word) (ending : Word) (beyond : List Token) :
    SyntaxTree :=
  let file := words.foldl (read grammar) empty
  let trailing := beyond.filter fun token => !token.isEnd
  SyntaxTree.ofKind .file
    (file.finish grammar ending ++ ending.leadLeaves ++ trailing.map SyntaxTree.leaf)

end FileReading

/-- The tree of the file with the given tokens. -/
def parseTokens (grammar : Grammar) (tokens : List Token) : Except UnendedStream SyntaxTree :=
  let stream := WordStream.ofTokens tokens
  match stream.ending with
  | some (ending, beyond) => .ok (FileReading.tree grammar stream.words ending beyond)
  | none => .error ⟨tokens.length⟩

theorem exists_ending_after {tokens : List Token} {final : Token} (present : final ∈ tokens)
    (ends : final.isEnd) (lead : List Token) :
    ((WordStream.after lead tokens).ending).isSome := by
  induction tokens generalizing lead with
  | nil => cases present
  | cons token tokens ih =>
    unfold WordStream.after
    rcases List.mem_cons.mp present with rfl | later
    · have plain : final.isTrivia = false := by
        have kind : final.kind = .endOfFile := by simpa [Token.isEnd] using ends
        simp [Token.isTrivia, kind, TokenKind.isTrivia]
      simp [plain, ends]
    · split
      · exact ih later _
      · split
        · rfl
        · exact ih later _

/-- Every list that holds an end token can be read. -/
theorem exists_parseTokens_eq_ok (grammar : Grammar) {tokens : List Token} {final : Token}
    (present : final ∈ tokens) (ends : final.isEnd) :
    ∃ tree, parseTokens grammar tokens = .ok tree := by
  obtain ⟨ending, found⟩ := Option.isSome_iff_exists.mp (exists_ending_after present ends [])
  refine ⟨FileReading.tree grammar (WordStream.ofTokens tokens).words ending.1 ending.2, ?_⟩
  simp only [parseTokens, WordStream.ofTokens, found]

/-- The tokens of a text hold an end token. -/
theorem exists_end_mem_tokensFrom (position : Position) (characters : List Char) :
    ∃ token ∈ tokensFrom position characters, token.isEnd := by
  fun_induction tokensFrom position characters with
  | case1 position => exact ⟨_, List.mem_singleton_self _, rfl⟩
  | case2 position character rest lexeme ih =>
    obtain ⟨token, present, ends⟩ := ih
    exact ⟨token, List.mem_cons_of_mem _ present, ends⟩

/-- The tree of the file with the given text. -/
def parseSource (grammar : Grammar) (source : String) : SyntaxTree :=
  match read : parseTokens grammar (tokenize source) with
  | .ok tree => tree
  | .error _ => False.elim <| by
    obtain ⟨_, present, ends⟩ := exists_end_mem_tokensFrom Position.start source.toList
    obtain ⟨_, readable⟩ := exists_parseTokens_eq_ok grammar present ends
    rw [tokenize, readable] at read
    cases read

end WolframSyntax
