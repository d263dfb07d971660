import SqlTemplate.Proofs.Template.Seams

/-!
Compiling two templates in one.

With lenient counts, a template text that is put together at a seam compiles to what its parts
compile to, one after the other, if the left part gets as many arguments as it has placeholders. The
text is read apart at the seam, so what is left to show here concerns the arguments alone: a request
of the right part, made where the left part has stopped, gets what it would get from the right
arguments by themselves. Hence the run over both parts is answered where both runs are, and is
refused where the first of them is.
-/

set_option autoImplicit false

namespace SqlTemplate

variable {escape : Escaper} {left right : List Value} {i k : Nat} {e : Error}

/-! ## Arguments in a row -/

/-- The arguments of the first template keep their numbers. -/
theorem argumentAt_append_left (right : List Value) (h : k < left.length) :
    argumentAt (left ++ right) k = argumentAt left k := by
  unfold argumentAt
  rw [List.getElem?_append_left h]

theorem argumentAt_append_right (left right : List Value) (k : Nat) :
    argumentAt (left ++ right) (left.length + k) = argumentAt right k := by
  unfold argumentAt
  rw [List.getElem?_append_right (Nat.le_add_right _ _), Nat.add_sub_cancel_left]

namespace Cursor

variable {cursor other : Cursor} {markers : List Marker} {answer : Nat → String × Bool}

/-- Answers are kept where the same replies are given, under the numbers of the other run. -/
theorem Answers.transfer (h : cursor.Answers escape markers answer)
    (hreply : ∀ i m, markers[i]? = some m →
      (other.ahead i).reply escape m = (cursor.ahead i).reply escape m)
    {answer' : Nat → String × Bool}
    (hanswer : ∀ i, answer' (other.position + i) = answer (cursor.position + i)) :
    other.Answers escape markers answer' := by
  intro i m hm
  rw [hreply i m hm, hanswer]
  exact h i m hm

/-- Where the replies agree, the same marker is refused. -/
theorem Refuses.transfer (h : cursor.Refuses escape markers i e)
    (hreply : ∀ i m, markers[i]? = some m →
      (other.ahead i).reply escape m = (cursor.ahead i).reply escape m) :
    other.Refuses escape markers i e := by
  obtain ⟨⟨m, hm, he⟩, hbefore⟩ := h
  refine ⟨⟨m, hm, (hreply i m hm).trans he⟩, ?_⟩
  intro j m' hj hm'
  rw [hreply j m' hm']
  exact hbefore j m' hj hm'

/-- The first template gets the same replies from both lists together. -/
theorem reply_append_left (right : List Value) (m : Marker) (h : i < left.length) :
    ((start left false).ahead i).reply escape m
      = ((start (left ++ right) false).ahead i).reply escape m := by
  rw [reply_lenient, reply_lenient, argumentAt_append_left right h]

/-- The second template gets the same replies behind the arguments of the first. -/
theorem reply_append_right (left right : List Value) (m : Marker) (i : Nat) :
    ((start right false).ahead i).reply escape m
      = (((start (left ++ right) false).ahead left.length).ahead i).reply escape m := by
  rw [ahead_ahead, reply_lenient, reply_lenient, argumentAt_append_right]

end Cursor

/-! ## Answers with other numbers -/

/-- Counting from a later number is counting with a shift. -/
theorem mapFrom_shift {α β : Type} (markers : α → List Marker) {f g : Nat → α → β} (n : Nat)
    (h : ∀ k a, f (n + k) a = g k a) (k : Nat) (as : List α) :
    mapFrom markers f (n + k) as = mapFrom markers g k as := by
  induction as generalizing k with
  | nil => rfl
  | cons a as ih => rw [mapFrom, mapFrom, h, Nat.add_assoc, ih]

/-- A piece is filled with the shifted answers. -/
theorem Piece.fill_shift (answer : Nat → String × Bool) (n k : Nat) (p : Piece) :
    p.fill answer (n + k) = p.fill (fun i => answer (n + i)) k := by
  cases p <;> rfl

theorem Segment.fill_shift (answer : Nat → String × Bool) (n k : Nat) (s : Segment) :
    s.fill answer (n + k) = s.fill (fun i => answer (n + i)) k := by
  cases s with
  | piece p => rw [fill, fill, Piece.fill_shift]
  | block pieces =>
    rw [fill, fill, Piece.filledText, Piece.filledText, Piece.filledSkip, Piece.filledSkip,
      Piece.fillAll, Piece.fillAll, mapFrom_shift _ n (Piece.fill_shift answer n)]

/-- Filling that goes on with answer `n` is filling with the answers from `n` on. -/
theorem Segment.fillAll_shift (answer : Nat → String × Bool) (n : Nat) (segments : List Segment) :
    fillAll answer n segments = fillAll (fun i => answer (n + i)) 0 segments :=
  mapFrom_shift markers n (fill_shift answer n) 0 segments

/-! ## Compiling -/

/-- **Compiling at a seam is compiling the parts,** one after the other with their own arguments,
and of two failures the one on the left counts. -/
theorem compile_of_seam (escape : Escaper) (mode : ElisionMode) {s₁ s₂ : String}
    {a₁ : List Value} (a₂ : List Value) (hseam : Seam s₁.toList s₂.toList)
    (hlength : a₁.length = (Template.parse s₁).placeholderCount) :
    compile escape ⟨mode, false⟩ (s₁ ++ s₂) (a₁ ++ a₂)
      = do
        let sql₁ ← compile escape ⟨mode, false⟩ s₁ a₁
        let sql₂ ← compile escape ⟨mode, false⟩ s₂ a₂
        return sql₁ ++ sql₂ := by
  have hmarkers := Template.markers_parse_append hseam
  have hcount : (Template.parse s₁).markers.length = a₁.length := hlength.symm
  have hleft : ∀ i m, (Template.parse s₁).markers[i]? = some m →
      ((Cursor.start a₁ false).ahead i).reply escape m
        = ((Cursor.start (a₁ ++ a₂) false).ahead i).reply escape m := by
    intro i m hm
    have hi : i < (Template.parse s₁).markers.length := (List.getElem?_eq_some_iff.mp hm).1
    exact Cursor.reply_append_left a₂ m (by omega)
  have hright : ∀ i m, (Template.parse s₂).markers[i]? = some m →
      ((Cursor.start a₂ false).ahead i).reply escape m
        = (((Cursor.start (a₁ ++ a₂) false).ahead (Template.parse s₁).markers.length).ahead
            i).reply escape m := by
    intro i m _
    rw [hcount]
    exact Cursor.reply_append_right a₁ a₂ m i
  unfold compile
  rcases Cursor.answers_or_refuses escape (Cursor.start (a₁ ++ a₂) false)
    (Template.parse (s₁ ++ s₂)).markers with ⟨answer, hanswers⟩ | ⟨i, e, hrefuses⟩
  · -- Both parts are answered, the right one under numbers that start after the left one's.
    rw [Template.compile_lenient_of_answers mode hanswers,
      Template.resolve_fill_parse_append mode answer hseam, Segment.fillAll_shift]
    rw [hmarkers] at hanswers
    obtain ⟨hanswers₁, hanswers₂⟩ := Cursor.answers_append.mp hanswers
    have h₁ := hanswers₁.transfer hleft (fun _ => rfl)
    have h₂ : (Cursor.start a₂ false).Answers escape (Template.parse s₂).markers
        fun i => answer ((Template.parse s₁).markers.length + i) :=
      hanswers₂.transfer hright fun i => by simp [Cursor.start]
    rw [Template.compile_lenient_of_answers mode h₁, Template.compile_lenient_of_answers mode h₂]
    rfl
  · rw [Template.compile_lenient_of_refuses mode hrefuses]
    rw [hmarkers] at hrefuses
    -- The refused marker is one of the left part, or the left part is answered in full.
    rcases Cursor.refuses_append hrefuses with hfirst | ⟨j, -, ⟨answer, hfirst⟩, hsecond⟩
    · rw [Template.compile_lenient_of_refuses mode (hfirst.transfer hleft)]
      rfl
    · have h₁ := hfirst.transfer hleft (fun _ => rfl)
      rw [Template.compile_lenient_of_answers mode h₁,
        Template.compile_lenient_of_refuses mode (hsecond.transfer hright)]
      rfl

/-- **Compiling is a homomorphism for concatenation.** If the last brace of the left text and the
first brace of the right text could not make a block, and no type code on the right stands after a
question mark at the end of the left text, then with lenient counts the two texts in one compile to
what they compile to by themselves, where the left one is given as many arguments as it takes. If
the left text fails, so do both in one, with the same error; else they fail as the right one
does. -/
theorem compile_append (escape : Escaper) (mode : ElisionMode) {s₁ s₂ : String}
    {a₁ : List Value} (a₂ : List Value)
    (hbraces : ¬ (lastBrace s₁.toList = some '{' ∧ firstBrace s₂.toList = some '}'))
    (hcode : ¬ (s₁.toList.getLast? = some '?'
      ∧ ∃ c, s₂.toList.head? = some c ∧ c ∈ ['d', 'f', 'a', '#', 's']))
    (hlength : a₁.length = (Template.parse s₁).placeholderCount) :
    compile escape ⟨mode, false⟩ (s₁ ++ s₂) (a₁ ++ a₂)
      = do
        let sql₁ ← compile escape ⟨mode, false⟩ s₁ a₁
        let sql₂ ← compile escape ⟨mode, false⟩ s₂ a₂
        return sql₁ ++ sql₂ := by
  apply compile_of_seam escape mode a₂ ?_ hlength
  constructor
  · intro hlast c hc
    -- The type codes are those that are listed.
    cases hm : Marker.ofChar? c with
    | none => rfl
    | some m =>
      refine absurd ⟨hlast, c, hc, ?_⟩ hcode
      rw [code_of_ofChar? hm]
      cases m <;> decide
  · intro hopen hclose
    exact hbraces ⟨hopen, hclose⟩

/-- A left text that ends in a question mark after an open brace, and a right text that begins with
a block of its own; the block is dropped. -/
theorem compile_append_open :
    ¬ (lastBrace "\x7bx\x7d \x7b?".toList = some '{' ∧ firstBrace "\x7b?\x7d,?d".toList = some '}')
      ∧ ¬ ("\x7bx\x7d \x7b?".toList.getLast? = some '?'
        ∧ ∃ c, "\x7b?\x7d,?d".toList.head? = some c ∧ c ∈ ['d', 'f', 'a', '#', 's'])
      ∧ [Value.text "a"].length = (Template.parse "\x7bx\x7d \x7b?").placeholderCount
      ∧ compile EscapingMode.mysql.escaper ⟨.structural, false⟩
          ("\x7bx\x7d \x7b?" ++ "\x7b?\x7d,?d") ([.text "a"] ++ [.skip, .int 7])
        = .ok "x \x7b'a',7" := by
  have hbraces : ¬ (lastBrace "\x7bx\x7d \x7b?".toList = some '{'
      ∧ firstBrace "\x7b?\x7d,?d".toList = some '}') := by decide +kernel
  have hcode : ¬ ("\x7bx\x7d \x7b?".toList.getLast? = some '?'
      ∧ ∃ c, "\x7b?\x7d,?d".toList.head? = some c ∧ c ∈ ['d', 'f', 'a', '#', 's']) := by
    rintro ⟨-, c, hc, hmem⟩
    obtain rfl : c = '{' := (Option.some.inj hc).symm
    exact absurd hmem (by decide)
  have hlength : [Value.text "a"].length
      = (Template.parse "\x7bx\x7d \x7b?").placeholderCount := by decide +kernel
  refine ⟨hbraces, hcode, hlength, ?_⟩
  rw [compile_append EscapingMode.mysql.escaper .structural [.skip, .int 7] hbraces hcode hlength]
  decide +kernel

end SqlTemplate
