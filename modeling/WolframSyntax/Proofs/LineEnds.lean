import WolframSyntax.Proofs.Seams

/-!
# Lexing up to the end of a line

A text in front of a line feed has the tokens that it has alone, except that a literal or a comment
that is not closed goes on and that a carriage return at its end becomes part of the line break
(`exists_tokensFrom_append`).
-/

namespace WolframSyntax

/-- Whether a text ends inside of a comment. -/
def endsInComment (source : String) : Bool :=
  (tokenize source).any fun token => token.lexeme.openAtEnd != 0

/-- In front of a line feed a text has the tokens that it has alone, except for the end and for a
carriage return at its end, if it has no bad tokens and does not end inside of a comment. -/
theorem exists_tokensFrom_append (position : Position) {line : List Char}
    (sound : ∀ token ∈ tokensFrom position line, token.kind ≠ .error)
    (closed : ∀ token ∈ tokensFrom position line, token.lexeme.openAtEnd = 0) (more : List Char) :
    ∃ body tail ending feed after, tokensFrom position line = body ++ (tail ++ [ending]) ∧
      tokensFrom position (line ++ '\n' :: more) = body ++ feed :: tokensFrom after more ∧
      body.any Token.isEnd = false ∧ (∀ token ∈ tail, token.isTrivia) ∧ ending.isEnd ∧
      feed.kind = .lineBreak := by
  have delimits : '\n' ∈ Lexeme.delimiters := by decide
  fun_induction tokensFrom position line with
  | case1 position =>
    exact ⟨[], [], _, _, _, rfl, tokensFrom_cons position '\n' more, rfl, List.forall_mem_nil _,
      rfl, rfl⟩
  | case2 position character rest lexeme ih =>
    obtain ⟨soundFirst, soundLater⟩ := List.forall_mem_cons.mp sound
    obtain ⟨closedFirst, closedLater⟩ := List.forall_mem_cons.mp closed
    by_cases last : character = '\r' ∧ rest = []
    · obtain ⟨rfl, rfl⟩ := last
      have ended : tokensFrom (position.advance ['\r']) []
          = [(Lexeme.read []).1.token (position.advance ['\r'])] := by rw [tokensFrom]
      exact ⟨[], [lexeme.token position], _, _, _, congrArg _ ended,
        tokensFrom_cons position '\r' _, rfl, List.forall_mem_singleton.mpr rfl, rfl, rfl⟩
    · have reads := Lexeme.readFrom_append_delimiter delimits (by decide) soundFirst
        (by simpa using closedFirst) (fun carriage _ none => last ⟨carriage, none⟩) more
      obtain ⟨body, tail, ending, feed, after, alone, joined, unended, rest⟩ :=
        ih soundLater closedLater
      have inner : (lexeme.token position).isEnd = false :=
        beq_false_of_ne (Lexeme.kind_readFrom_ne_endOfFile character _)
      refine ⟨lexeme.token position :: body, tail, ending, feed, after, ?_, ?_, ?_, rest⟩
      · rw [alone, List.cons_append]
      · rw [List.cons_append, tokensFrom_cons, reads, joined, List.cons_append]
      · rw [List.any_cons, inner, unended, Bool.or_false]

end WolframSyntax
