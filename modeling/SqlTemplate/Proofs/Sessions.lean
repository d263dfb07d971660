import SqlTemplate.Proofs.Substitution

/-!
One cursor through a whole session.

A session is any sequence of single requests and substitutions on one cursor. A use that fails does
not end it: the next one goes on from where the failure left the cursor. To say which request got
which argument, rendering is written once for every kind of state that answers requests
(`Server`). With a cursor it is the rendering that compiles templates (`substituteBy_cursor`); with
a cursor that keeps a journal it does the same and writes down each answer as it is given.

The invariant is `Journals`: the journal grows by what the cursor answers at the places that it goes
past, no place being left out and none visited again. One request has it, it is kept by sequencing
and by going through a list, and hence a session has it. So the journal of a session is the list of
arguments, read once from its beginning, and then the answers past its end (`cursor_serves_once`).
-/

set_option autoImplicit false

namespace SqlTemplate

variable {α β : Type}

/-! ## Rendering, by any state that answers requests -/

/-- States that answer requests for arguments. -/
class Server (S : Type) where
  /-- What a request is answered with, and the state after it. -/
  request : S → Except Error Value × S

/-- A computation that takes arguments from a state and may fail; the state stays where a failure
left it. -/
abbrev ServedBy (S : Type) := ExceptT Error (StateM S)

namespace ServedBy

variable {S : Type}

def next [Server S] : ServedBy S Value := fun s => Server.request s

def ofResult (result : Except Error α) : ServedBy S α := fun s => (result, s)

end ServedBy

section

variable (S : Type) [Server S] (escape : Escaper)

def Piece.renderBy : Piece → ServedBy S (String × Bool)
  | text content => pure (content, false)
  | marker m => do
    let value ← ServedBy.next
    let written ← ServedBy.ofResult (m.format escape value)
    return (written, value.isSkip)

def Segment.renderBy : Segment → ServedBy S Rendered
  | piece p => do
    let (content, _) ← p.renderBy S escape
    return .text content
  | block pieces => do
    let parts ← pieces.mapM (Piece.renderBy S escape)
    return .block (String.join (parts.map Prod.fst)) (parts.any Prod.snd)

def Template.substituteBy (t : Template) : ServedBy S (List Rendered) :=
  t.segments.mapM (Segment.renderBy S escape)

end

instance : Server Cursor where
  request cursor := (cursor.current, cursor.advance)

theorem Piece.renderBy_cursor (escape : Escaper) :
    Piece.renderBy Cursor escape = Piece.render escape := by
  funext p
  cases p <;> rfl

theorem Segment.renderBy_cursor (escape : Escaper) :
    Segment.renderBy Cursor escape = Segment.render escape := by
  funext s
  cases s with
  | piece p => rw [renderBy, render, Piece.renderBy_cursor]
  | block pieces => rw [renderBy, render, Piece.renderBy_cursor]

/-- **Served by a cursor, this is substitution.** -/
theorem Template.substituteBy_cursor (escape : Escaper) (t : Template) :
    t.substituteBy Cursor escape = t.substitute escape := by
  rw [substituteBy, substitute, Segment.renderBy_cursor]

/-! ## A journal of the answers -/

/-- A cursor, and all answers that it has given, in order. -/
structure JournaledCursor where
  cursor : Cursor
  journal : List (Except Error Value)

instance : Server JournaledCursor where
  request s := (s.cursor.current, ⟨s.cursor.advance, s.journal ++ [s.cursor.current]⟩)

namespace Cursor

/-- What the next `n` requests are answered with. -/
def served (cursor : Cursor) (n : Nat) : List (Except Error Value) :=
  (List.range n).map fun i => (cursor.ahead i).current

/-- What is served first, and what is served from there on. -/
theorem served_add (cursor : Cursor) (m n : Nat) :
    cursor.served (m + n) = cursor.served m ++ (cursor.ahead m).served n := by
  unfold served
  rw [List.range_add, List.map_append, List.map_map]
  congr 1
  apply List.map_congr_left
  intro i _
  rw [ahead_ahead, Function.comp_apply]

end Cursor

/-- With a journal the computation does what it does without, and the journal grows by the answers
at the places that the cursor goes past. -/
def Journals (journaled : StateM JournaledCursor α) (plain : StateM Cursor α) : Prop :=
  ∀ cursor journal, ∃ n, (plain.run cursor).2 = cursor.ahead n
    ∧ journaled.run ⟨cursor, journal⟩
        = ((plain.run cursor).1, ⟨cursor.ahead n, journal ++ cursor.served n⟩)

namespace Journals

theorem pure (a : α) : Journals (Pure.pure a) (Pure.pure a) := by
  intro cursor journal
  refine ⟨0, rfl, ?_⟩
  rw [Cursor.served, List.range_zero, List.map_nil, List.append_nil, Cursor.ahead_zero]
  rfl

theorem next : Journals (ServedBy.next (S := JournaledCursor)).run ServedBy.next.run :=
  fun _ _ => ⟨1, rfl, rfl⟩

theorem bind {x : StateM JournaledCursor α} {y : StateM Cursor α}
    {f : α → StateM JournaledCursor β} {g : α → StateM Cursor β} (h : Journals x y)
    (h' : ∀ a, Journals (f a) (g a)) : Journals (x >>= f) (y >>= g) := by
  intro cursor journal
  obtain ⟨m, hafter, hfirst⟩ := h cursor journal
  obtain ⟨n, hend, hsecond⟩ :=
    h' (y.run cursor).1 (cursor.ahead m) (journal ++ cursor.served m)
  have hplain : (y >>= g).run cursor = (g (y.run cursor).1).run (cursor.ahead m) := by
    rw [← hafter]
    rfl
  refine ⟨m + n, ?_, ?_⟩
  · rw [hplain, hend, Cursor.ahead_ahead]
  · rw [hplain, Cursor.served_add, ← List.append_assoc, ← Cursor.ahead_ahead, ← hsecond]
    show (f (x.run ⟨cursor, journal⟩).1).run (x.run ⟨cursor, journal⟩).2 = _
    rw [hfirst]

/-- After a failure there is nothing to go on with, and the state stays. -/
theorem bindResult {x : ServedBy JournaledCursor α} {y : ServedBy Cursor α}
    {f : α → ServedBy JournaledCursor β} {g : α → ServedBy Cursor β} (h : Journals x.run y.run)
    (h' : ∀ a, Journals (f a).run (g a).run) : Journals (x >>= f).run (y >>= g).run := by
  show Journals (x.run >>= ExceptT.bindCont f) (y.run >>= ExceptT.bindCont g)
  refine Journals.bind h fun result => ?_
  cases result with
  | ok a => exact h' a
  | error e => exact Journals.pure (Except.error e)

theorem mapM {f : α → StateM JournaledCursor β} {g : α → StateM Cursor β}
    (h : ∀ a, Journals (f a) (g a)) (as : List α) : Journals (as.mapM f) (as.mapM g) := by
  induction as with
  | nil => exact Journals.pure []
  | cons a as ih =>
    rw [List.mapM_cons, List.mapM_cons]
    exact Journals.bind (h a) fun b => Journals.bind ih fun bs => Journals.pure (b :: bs)

theorem mapMResult {f : α → ServedBy JournaledCursor β} {g : α → ServedBy Cursor β}
    (h : ∀ a, Journals (f a).run (g a).run) (as : List α) :
    Journals (as.mapM f).run (as.mapM g).run := by
  induction as with
  | nil => exact Journals.pure (Except.ok [])
  | cons a as ih =>
    rw [List.mapM_cons, List.mapM_cons]
    exact bindResult (h a) fun b => bindResult ih fun bs => Journals.pure (Except.ok (b :: bs))

end Journals

section

variable (escape : Escaper)

theorem Piece.journals_render (p : Piece) :
    Journals (p.renderBy JournaledCursor escape).run (p.renderBy Cursor escape).run := by
  cases p with
  | text content => exact Journals.pure (Except.ok (content, false))
  | marker m =>
    refine Journals.bindResult Journals.next fun value => ?_
    -- Formatting is no request.
    refine Journals.bindResult (Journals.pure (m.format escape value)) fun written => ?_
    exact Journals.pure (Except.ok (written, value.isSkip))

theorem Segment.journals_render (s : Segment) :
    Journals (s.renderBy JournaledCursor escape).run (s.renderBy Cursor escape).run := by
  cases s with
  | piece p =>
    exact Journals.bindResult (p.journals_render escape) fun part =>
      Journals.pure (Except.ok (Rendered.text part.1))
  | block pieces =>
    exact Journals.bindResult (Journals.mapMResult (Piece.journals_render escape) pieces)
      fun parts => Journals.pure
        (Except.ok (Rendered.block (String.join (parts.map Prod.fst)) (parts.any Prod.snd)))

/-- Substituting a template journals what it is served. -/
theorem Template.journals_substitute (t : Template) :
    Journals (t.substituteBy JournaledCursor escape).run (t.substituteBy Cursor escape).run :=
  Journals.mapMResult (Segment.journals_render escape) t.segments

end

/-! ## Sessions -/

/-- What a caller can do with a cursor. -/
inductive Use where
  | next
  | substitute (template : Template)

/-- What the caller gets for it. -/
inductive Reply where
  | value (answer : Except Error Value)
  | rendered (result : Except Error (List Rendered))

namespace Use

/-- One use of a cursor. A failure is a reply and leaves the cursor where it is. -/
def perform (escape : Escaper) : Use → StateM Cursor Reply
  | next => Reply.value <$> Serving.next.run
  | substitute t => Reply.rendered <$> (t.substitute escape).run

/-- The same use of a cursor that keeps a journal. -/
def performJournaled (escape : Escaper) : Use → StateM JournaledCursor Reply
  | next => Reply.value <$> (ServedBy.next (S := JournaledCursor)).run
  | substitute t => Reply.rendered <$> (t.substituteBy JournaledCursor escape).run

/-- Every use of a cursor journals what it is served. -/
theorem journals_perform (escape : Escaper) (use : Use) :
    Journals (use.performJournaled escape) (use.perform escape) := by
  cases use with
  | next => exact Journals.bind Journals.next fun answer => Journals.pure (Reply.value answer)
  | substitute t =>
    have h := t.journals_substitute escape
    rw [Template.substituteBy_cursor] at h
    exact Journals.bind h fun result => Journals.pure (Reply.rendered result)

end Use

/-- What request number `k` of a session is answered with, counted from zero. -/
def answerTo (arguments : List Value) (strict : Bool) (k : Nat) : Except Error Value :=
  match arguments[k]? with
  | some value => .ok value
  | none => if strict then .error (.missingArgument (k + 1)) else .ok .skip

variable {escape : Escaper} {arguments : List Value} {strict : Bool}

/-- From the start on, the arguments are served by their numbers. -/
theorem Cursor.served_start (arguments : List Value) (strict : Bool) (n : Nat) :
    (start arguments strict).served n = (List.range n).map (answerTo arguments strict) := by
  apply List.map_congr_left
  intro k _
  have hahead : (start arguments strict).ahead k = ⟨arguments, strict, k⟩ := by
    rw [ahead, start, Nat.zero_add]
  rw [hahead]
  rfl

/-- Up to the length of the list every request gets the argument of its own number. -/
theorem take_answerTo (arguments : List Value) (strict : Bool) (n : Nat) :
    ((List.range n).map (answerTo arguments strict)).take arguments.length
      = (arguments.take n).map .ok := by
  apply List.ext_getElem?
  intro k
  rw [List.getElem?_take, List.getElem?_map, List.getElem?_map, List.getElem?_take]
  by_cases hk : k < arguments.length
  · rw [if_pos hk]
    by_cases hn : k < n
    · rw [if_pos hn, List.getElem?_range hn, Option.map_some, answerTo,
        List.getElem?_eq_getElem hk, Option.map_some]
    · rw [if_neg hn, List.getElem?_eq_none (by simpa using hn), Option.map_none, Option.map_none]
  · rw [if_neg hk, List.getElem?_eq_none (Nat.le_of_not_lt hk)]
    split <;> rfl

namespace Template

variable {t : Template} {cursor after : Cursor}

/-- A substitution that succeeds has used one answer for each placeholder. -/
theorem substitute_ok {rendered : List Rendered}
    (h : (t.substitute escape).outcome cursor = (.ok rendered, after)) :
    ∃ answer, cursor.Answers escape t.markers answer
      ∧ rendered = Segment.fillAll answer cursor.position t.segments
      ∧ after = cursor.ahead t.placeholderCount := by
  rcases Cursor.answers_or_refuses escape cursor t.markers with
    ⟨answer, hanswers⟩ | ⟨i, e, hrefuses⟩
  · rw [(asks_substitute escape t).answered _ _ hanswers, Prod.mk.injEq, Except.ok.injEq] at h
    exact ⟨answer, hanswers, h.1.symm, h.2.symm⟩
  · rw [(asks_substitute escape t).refused _ _ _ hrefuses] at h
    exact absurd h (by simp)

/-- A substitution that fails has moved the cursor up to the marker that was refused. -/
theorem substitute_error {e : Error}
    (h : (t.substitute escape).outcome cursor = (.error e, after)) :
    ∃ i, cursor.Refuses escape t.markers i e ∧ after = cursor.ahead (i + 1) := by
  rcases Cursor.answers_or_refuses escape cursor t.markers with
    ⟨answer, hanswers⟩ | ⟨i, e', hrefuses⟩
  · rw [(asks_substitute escape t).answered _ _ hanswers] at h
    exact absurd h (by simp)
  · rw [(asks_substitute escape t).refused _ _ _ hrefuses, Prod.mk.injEq,
      Except.error.injEq] at h
    obtain ⟨rfl, rfl⟩ := h
    exact ⟨i, hrefuses, rfl⟩

/-- A template put together from the segments of two is substituted as these are in a row. -/
theorem substitute_append {t₁ t₂ : Template} {middle : Cursor} {rendered₁ rendered₂ : List Rendered}
    (source : String) (h₁ : (t₁.substitute escape).outcome cursor = (.ok rendered₁, middle))
    (h₂ : (t₂.substitute escape).outcome middle = (.ok rendered₂, after)) :
    (substitute escape ⟨source, t₁.segments ++ t₂.segments⟩).outcome cursor
      = (.ok (rendered₁ ++ rendered₂), after) := by
  have happend : substitute escape ⟨source, t₁.segments ++ t₂.segments⟩ = do
      let rendered₁ ← t₁.substitute escape
      let rendered₂ ← t₂.substitute escape
      return rendered₁ ++ rendered₂ := List.mapM_append
  rw [happend, Serving.outcome_bind_ok _ h₁, Serving.outcome_bind_ok _ h₂, Serving.outcome_pure]

end Template

/-- Finishing fails only with exact counts and arguments left, and tells both numbers. -/
theorem Cursor.finish_eq_error_iff (cursor : Cursor) (e : Error) :
    cursor.finish = .error e
      ↔ cursor.strict = true ∧ cursor.position < cursor.arguments.length
        ∧ e = .tooManyArguments cursor.position cursor.arguments.length := by
  rw [finish]
  by_cases h : cursor.strict ∧ cursor.position < cursor.arguments.length
  · rw [if_pos h, Except.error.injEq]
    exact ⟨fun he => ⟨h.1, h.2, he.symm⟩, fun he => he.2.2.symm⟩
  · rw [if_neg h]
    exact ⟨fun he => absurd he (by simp), fun he => absurd ⟨he.1, he.2.1⟩ h⟩

/-- What holds of a cursor over `arguments` and of its journal, whatever it was used for. -/
structure ServesOnce (escape : Escaper) (arguments : List Value) (strict : Bool) (cursor : Cursor)
    (journal : List (Except Error Value)) : Prop where
  /-- It is still a cursor over the same list. -/
  sameList : cursor = (Cursor.start arguments strict).ahead cursor.position
  /-- There were as many requests as the cursor has counted, and request `k` got answer `k`. -/
  answered : journal = (List.range cursor.position).map (answerTo arguments strict)
  /-- The arguments that were handed out are a beginning of the list, in order and each once. -/
  handedOut : journal.take arguments.length = (arguments.take cursor.position).map .ok
  /-- A substitution that succeeds has asked once for each marker and filled the answers in. -/
  success : ∀ (t : Template) rendered after,
    (t.substitute escape).outcome cursor = (.ok rendered, after) →
      ∃ answer, cursor.Answers escape t.markers answer
        ∧ rendered = Segment.fillAll answer cursor.position t.segments
        ∧ after.position = cursor.position + t.placeholderCount
  /-- One that fails has asked up to the first marker that is not answered or cannot be written. -/
  failure : ∀ (t : Template) e after,
    (t.substitute escape).outcome cursor = (.error e, after) →
      ∃ i < t.placeholderCount, cursor.Refuses escape t.markers i e
        ∧ after.position = cursor.position + (i + 1)
  /-- Two templates in a row are one template with the segments of both. -/
  inARow : ∀ (t₁ t₂ : Template) source rendered₁ rendered₂ middle after,
    (t₁.substitute escape).outcome cursor = (.ok rendered₁, middle) →
      (t₂.substitute escape).outcome middle = (.ok rendered₂, after) →
      (Template.substitute escape ⟨source, t₁.segments ++ t₂.segments⟩).outcome cursor
        = (.ok (rendered₁ ++ rendered₂), after)
  /-- The end fails if counts must be exact and arguments are left over. -/
  finish : ∀ e, cursor.finish = .error e
    ↔ strict = true ∧ cursor.position < arguments.length
      ∧ e = .tooManyArguments cursor.position arguments.length

/-- A cursor that was moved on from the start has served everything before it once. -/
theorem ServesOnce.of_position (escape : Escaper) (arguments : List Value) (strict : Bool)
    (n : Nat) :
    ServesOnce escape arguments strict ((Cursor.start arguments strict).ahead n)
      ((Cursor.start arguments strict).served n) := by
  have hposition : ((Cursor.start arguments strict).ahead n).position = n := Nat.zero_add n
  refine ⟨by rw [hposition], ?_, ?_, ?_, ?_, ?_, ?_⟩
  · rw [hposition, Cursor.served_start]
  · rw [hposition, Cursor.served_start, take_answerTo]
  · intro t rendered after h
    obtain ⟨answer, hanswers, hrendered, rfl⟩ := Template.substitute_ok h
    exact ⟨answer, hanswers, hrendered, rfl⟩
  · intro t e after h
    obtain ⟨i, hrefuses, rfl⟩ := Template.substitute_error h
    obtain ⟨m, hm, -⟩ := hrefuses.1
    exact ⟨i, (List.getElem?_eq_some_iff.mp hm).1, hrefuses, rfl⟩
  · intro t₁ t₂ source rendered₁ rendered₂ middle after h₁ h₂
    exact Template.substitute_append source h₁ h₂
  · exact Cursor.finish_eq_error_iff _

/-- **One cursor serves any session in order, once each.** Take any list of arguments, exact counts
or not, and any sequence of requests and substitutions on one cursor, failures included. Keeping a
journal changes neither a reply nor the cursor, and the journal shows the requests of the session
answered one after the other from the beginning of the list on, and past its end with the skip
sentinel or, where counts are exact, with the error that names the request. From wherever the
session has left the cursor, a substitution moves it by its placeholders, or up to the one that
fails it, and the final check fails exactly if counts are exact and the session has asked too
little. -/
theorem cursor_serves_once (escape : Escaper) (arguments : List Value) (strict : Bool)
    (uses : List Use) :
    ∃ replies cursor journal,
      (uses.mapM (Use.perform escape)).run (.start arguments strict) = (replies, cursor)
        ∧ (uses.mapM (Use.performJournaled escape)).run ⟨.start arguments strict, []⟩
          = (replies, ⟨cursor, journal⟩)
        ∧ ServesOnce escape arguments strict cursor journal := by
  obtain ⟨n, hafter, hrun⟩ :=
    Journals.mapM (Use.journals_perform escape) uses (.start arguments strict) []
  refine ⟨((uses.mapM (Use.perform escape)).run (.start arguments strict)).1,
    (Cursor.start arguments strict).ahead n, (Cursor.start arguments strict).served n,
    Prod.ext rfl hafter, ?_, ServesOnce.of_position escape arguments strict n⟩
  rw [hrun, List.nil_append]

end SqlTemplate
