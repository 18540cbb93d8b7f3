import Mathlib.Data.List.DropRight
import WolframSyntax.Proofs.Lines

/-!
# Places of tokens

The tokens of a text partition it, and the place of each of them is told by the text in front of it
alone: the line by the number of its line feeds, the column by the number of characters behind the
last of them. The kinds of the tokens between do not matter (`tokenize_partition`).
-/

namespace WolframSyntax

namespace Position

theorem advance_append (position : Position) (before after : List Char) :
    position.advance (before ++ after) = (position.advance before).advance after :=
  List.foldl_append

theorem line_advance (position : Position) (characters : List Char) :
    (position.advance characters).line = position.line + characters.count '\n' := by
  induction characters generalizing position with
  | nil => simp [advance]
  | cons character characters ih =>
    change ((position.after character).advance characters).line = _
    rw [ih, after, List.count_cons]
    by_cases feed : character = '\n'
    · simp only [feed, ↓reduceIte, beq_self_eq_true]
      omega
    · simp [feed]

/-- Only the last line counts for the column, so the induction takes characters off the end. -/
theorem col_advance_start (characters : List Char) :
    (start.advance characters).col = 1 + (characters.rtakeWhile (· ≠ '\n')).length := by
  induction characters using List.reverseRecOn with
  | nil => rfl
  | append_singleton characters character ih =>
    rw [advance_append]
    change ((start.advance characters).after character).col = _
    by_cases feed : character = '\n'
    · rw [List.rtakeWhile_concat_neg _ _ _ (by simpa using feed), after, if_pos feed]
      rfl
    · rw [List.rtakeWhile_concat_pos _ _ _ (by simpa using feed), after, if_neg feed,
        List.length_append, List.length_singleton]
      change (start.advance characters).col + 1 = _
      omega

end Position

/-- The texts of some tokens one after another. -/
def spelling (tokens : List Token) : List Char := tokens.flatMap fun token => token.text.toList

/-- A token stands where the text in front of it ends. -/
theorem position_eq_advance {position : Position} {characters : List Char}
    {before after : List Token} {token : Token}
    (split : tokensFrom position characters = before ++ token :: after) :
    token.position = position.advance (spelling before) := by
  fun_induction tokensFrom position characters generalizing before with
  | case1 position =>
    cases before with
    | nil =>
      cases split
      rfl
    | cons first before => simp at split
  | case2 position character rest lexeme =>
    rename_i ih
    cases before with
    | nil =>
      cases split
      rfl
    | cons first before =>
      obtain ⟨rfl, later⟩ := List.cons.inj split
      rw [ih later, spelling, spelling, List.flatMap_cons, Position.advance_append, Lexeme.token,
        String.toList_ofList]

theorem text_ne_empty_of_mem_tokensFrom {position : Position} {characters : List Char}
    {token : Token} (present : token ∈ tokensFrom position characters)
    (plain : token.isEnd = false) : token.text ≠ "" := by
  fun_induction tokensFrom position characters with
  | case1 position =>
    obtain rfl := List.mem_singleton.mp present
    cases plain
  | case2 position character rest lexeme ih =>
    rcases List.mem_cons.mp present with rfl | later
    · intro empty
      have none : (lexeme.token position).text.toList = [] := by rw [empty, String.toList_empty]
      rw [Lexeme.token, String.toList_ofList] at none
      exact Lexeme.characters_readFrom_ne_nil character rest none
    · exact ih later

theorem text_of_isEnd_of_mem_tokensFrom {position : Position} {characters : List Char}
    {token : Token} (present : token ∈ tokensFrom position characters) (ends : token.isEnd) :
    token.text = "" := by
  fun_induction tokensFrom position characters with
  | case1 position =>
    obtain rfl := List.mem_singleton.mp present
    rfl
  | case2 position character rest lexeme ih =>
    rcases List.mem_cons.mp present with rfl | later
    · exact (Lexeme.kind_readFrom_ne_endOfFile character rest (eq_of_beq ends)).elim
    · exact ih later

/-- The tokens of a text end with the one token that has no text, all others spell the text, and
each stands on the line and in the column that the text in front of it leads to. -/
theorem tokenize_partition (source : String) :
    (∃ body final, tokenize source = body ++ [final] ∧
      final.kind = .endOfFile ∧ final.text = "" ∧
      (∀ token ∈ body, token.kind ≠ .endOfFile ∧ token.text ≠ "")) ∧
    spelling (tokenize source) = source.toList ∧
    ∀ before token after, tokenize source = before ++ token :: after →
      token.line = ((1 + (spelling before).count '\n' : Nat) : Int) ∧
      token.col = ((1 + ((spelling before).rtakeWhile (· ≠ '\n')).length : Nat) : Int) := by
  obtain ⟨body, final, same, unended, ends⟩ := exists_tokensFrom_eq Position.start source.toList
  have among : ∀ token ∈ body ++ [final], token ∈ tokensFrom Position.start source.toList :=
    fun token present => same ▸ present
  have plain : ∀ token ∈ body, token.isEnd = false := by simpa using unended
  have silent : final.text = "" :=
    text_of_isEnd_of_mem_tokensFrom (among final (by simp)) ends
  refine ⟨⟨body, final, same, eq_of_beq ends, silent, fun token present => ⟨?_, ?_⟩⟩, ?_, ?_⟩
  · exact ne_of_beq_false (plain token present)
  · exact text_ne_empty_of_mem_tokensFrom (among token (by simp [present])) (plain token present)
  · have spelled := flatMap_text_filter_tokensFrom Position.start source.toList
    have kept : body.filter (fun token => !token.isEnd) = body :=
      List.filter_eq_self.mpr fun token present => by rw [plain token present]; rfl
    rw [same, List.filter_append, kept] at spelled
    simpa [tokenize, same, spelling, ends, silent] using spelled
  · intro before token after split
    have placed := position_eq_advance split
    have line := Position.line_advance Position.start (spelling before)
    have col := Position.col_advance_start (spelling before)
    rw [← placed] at line col
    rw [Int.natCast_add, Int.natCast_add]
    exact ⟨line, col⟩

/-- A comment over two lines and a string with a line feed put what follows them further down. -/
example : (tokenize "(*\n*) \"\n\"x").map (fun token => (token.line, token.col))
    = [(1, 1), (2, 3), (2, 4), (3, 2), (3, 3)] := by decide +kernel

end WolframSyntax
