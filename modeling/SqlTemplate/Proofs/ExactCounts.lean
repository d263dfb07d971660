import SqlTemplate.Proofs.Substitution

/-!
Exact argument counts against lenient ones.

Compiling with exact counts makes the same requests in the same order as lenient compiling and
differs from it in two places only: a request past the last argument fails, and so does the end
when arguments are left over. So of the three ways to fail the earliest request decides, and a
surplus is noticed only when everything was answered. `compile_strict` states this precedence and
its consequence: exact counts accept the same calls with the right number of arguments, and make the
same SQL of them.
-/

set_option autoImplicit false

namespace SqlTemplate.Template

variable {escape : Escaper} {t : Template} {arguments : List Value} {k : Nat} {e : Error}

/-- Argument `k` is there and cannot be formatted for marker `k`. -/
def Misfit (escape : Escaper) (t : Template) (arguments : List Value) (k : Nat) (e : Error) :
    Prop :=
  ∃ m value, t.markers[k]? = some m ∧ arguments[k]? = some value ∧ m.format escape value = .error e

/-- Argument `k` is the first that cannot be formatted for its marker. -/
def FirstMisfit (escape : Escaper) (t : Template) (arguments : List Value) (k : Nat) (e : Error) :
    Prop :=
  t.Misfit escape arguments k e ∧ ∀ j e', j < k → ¬ t.Misfit escape arguments j e'

/-- Where there is a misfit, there is a first one. -/
theorem exists_firstMisfit (h : t.Misfit escape arguments k e) :
    ∃ j e', t.FirstMisfit escape arguments j e' := by
  classical
  have hex : ∃ j, ∃ e', t.Misfit escape arguments j e' := ⟨k, e, h⟩
  obtain ⟨e', he'⟩ := Nat.find_spec hex
  exact ⟨Nat.find hex, e', he', fun j e'' hj hm => Nat.find_min hex hj ⟨e'', hm⟩⟩

/-- A request with an argument that fits is answered, with exact counts and without. -/
theorem exists_reply_of_not_misfit {m : Marker} (strict : Bool) (hm : t.markers[k]? = some m)
    (hk : k < arguments.length) (h : ∀ e, ¬ t.Misfit escape arguments k e) :
    ∃ a, ((Cursor.start arguments strict).ahead k).reply escape m = .ok a := by
  rw [Cursor.reply_of_lt hk]
  cases hw : m.format escape (argumentAt arguments k) with
  | ok written => exact ⟨_, rfl⟩
  | error e =>
    refine absurd ⟨m, arguments[k], hm, List.getElem?_eq_getElem hk, ?_⟩ (h e)
    rwa [argumentAt, List.getElem?_eq_getElem hk, Option.getD_some] at hw

/-- The first misfit stops the run, with exact counts and without. -/
theorem refuses_of_firstMisfit (strict : Bool) (h : t.FirstMisfit escape arguments k e) :
    (Cursor.start arguments strict).Refuses escape t.markers k e := by
  obtain ⟨⟨m, value, hm, hv, he⟩, hfirst⟩ := h
  have hk : k < arguments.length := (List.getElem?_eq_some_iff.mp hv).1
  refine ⟨⟨m, hm, ?_⟩, fun j m' hj hm' => ?_⟩
  · rw [Cursor.reply_of_lt hk, argumentAt, hv, Option.getD_some, he]
    rfl
  · exact exists_reply_of_not_misfit strict hm' (by omega) fun e' => hfirst j e' hj

/-- Without misfits, exact counts stop at the first missing argument. -/
theorem refuses_of_length_lt (h : ∀ j e, ¬ t.Misfit escape arguments j e)
    (hlt : arguments.length < t.markers.length) :
    (Cursor.start arguments true).Refuses escape t.markers arguments.length
      (.missingArgument (arguments.length + 1)) := by
  refine ⟨⟨t.markers[arguments.length], List.getElem?_eq_getElem hlt, ?_⟩, fun j m hj hm => ?_⟩
  · exact Cursor.reply_strict_of_le (Nat.le_refl _)
  · exact exists_reply_of_not_misfit true hm hj (h j)

/-- Without misfits and missing arguments all requests are answered, and the answers do not depend
on whether counts must be exact. -/
theorem answers_of_length_le (h : ∀ j e, ¬ t.Misfit escape arguments j e)
    (hle : t.markers.length ≤ arguments.length) :
    ∃ answer, ∀ strict, (Cursor.start arguments strict).Answers escape t.markers answer := by
  have hlt : ∀ i m, t.markers[i]? = some m → i < arguments.length := fun i m hm =>
    Nat.lt_of_lt_of_le (List.getElem?_eq_some_iff.mp hm).1 hle
  obtain ⟨answer, hanswer⟩ :
      ∃ answer, (Cursor.start arguments true).Answers escape t.markers answer :=
    Cursor.exists_answers fun i m hm => exists_reply_of_not_misfit true hm (hlt i m hm) (h i)
  -- Where there is an argument the reply is the same for both ways of counting.
  refine ⟨answer, fun strict i m hm => ?_⟩
  have hi := hlt i m hm
  have := hanswer i m hm
  rwa [Cursor.reply_of_lt hi] at this ⊢

section

variable (mode : ElisionMode)

/-- The first misfit is reported, however the arguments are counted. -/
theorem compile_of_firstMisfit (strict : Bool) (h : t.FirstMisfit escape arguments k e) :
    t.compile escape ⟨mode, strict⟩ arguments = .error e :=
  compile_of_refuses (refuses_of_firstMisfit strict h)

/-- Where all arguments fit and there are too few, the first one that is missing is reported. -/
theorem compile_strict_of_length_lt (h : ∀ j e, ¬ t.Misfit escape arguments j e)
    (hlt : arguments.length < t.placeholderCount) :
    t.compile escape ⟨mode, true⟩ arguments
      = .error (.missingArgument (arguments.length + 1)) :=
  compile_of_refuses (refuses_of_length_lt h hlt)

/-- Where all arguments fit and there are too many, both numbers are reported. -/
theorem compile_strict_of_lt_length (h : ∀ j e, ¬ t.Misfit escape arguments j e)
    (hlt : t.placeholderCount < arguments.length) :
    t.compile escape ⟨mode, true⟩ arguments
      = .error (.tooManyArguments t.placeholderCount arguments.length) := by
  obtain ⟨answer, hanswer⟩ := answers_of_length_le h (Nat.le_of_lt hlt)
  rw [compile_of_answers (hanswer true), if_pos ⟨rfl, hlt⟩, placeholderCount]

/-- With the right number of arguments, all of which fit, both ways of counting make the same
SQL. -/
theorem compile_of_length_eq (h : ∀ j e, ¬ t.Misfit escape arguments j e)
    (heq : arguments.length = t.placeholderCount) :
    ∃ sql, ∀ strict, t.compile escape ⟨mode, strict⟩ arguments = .ok sql := by
  obtain ⟨answer, hanswer⟩ := answers_of_length_le h (Nat.le_of_eq heq.symm)
  refine ⟨Rendered.resolve mode (t.fill answer), fun strict => ?_⟩
  rw [compile_of_answers (hanswer strict), if_neg]
  rintro ⟨-, hlt⟩
  exact absurd heq (Nat.ne_of_gt hlt)

end

/-- **Exact counts are lenient compiling and a check of the count, with a fixed precedence.** The
first argument that does not fit its marker decides, and then both ways of compiling fail alike. If
all fit, a missing argument is reported at its own number, a surplus with both counts, and otherwise
the two results are the same. So exact counts succeed on precisely the calls with the right number
of arguments on which lenient compiling succeeds, with the same SQL. -/
theorem compile_strict (escape : Escaper) (mode : ElisionMode) (t : Template)
    (arguments : List Value) :
    (∀ k e, t.FirstMisfit escape arguments k e →
        t.compile escape ⟨mode, true⟩ arguments = .error e
          ∧ t.compile escape ⟨mode, false⟩ arguments = .error e)
      ∧ ((∀ k e, ¬ t.Misfit escape arguments k e) →
          (arguments.length < t.placeholderCount →
              t.compile escape ⟨mode, true⟩ arguments
                = .error (.missingArgument (arguments.length + 1)))
            ∧ (t.placeholderCount < arguments.length →
              t.compile escape ⟨mode, true⟩ arguments
                = .error (.tooManyArguments t.placeholderCount arguments.length))
            ∧ (arguments.length = t.placeholderCount →
              t.compile escape ⟨mode, true⟩ arguments = t.compile escape ⟨mode, false⟩ arguments))
      ∧ ((∃ sql, t.compile escape ⟨mode, true⟩ arguments = .ok sql)
          ↔ arguments.length = t.placeholderCount
            ∧ ∃ sql, t.compile escape ⟨mode, false⟩ arguments = .ok sql)
      ∧ ∀ sql, t.compile escape ⟨mode, true⟩ arguments = .ok sql →
          t.compile escape ⟨mode, false⟩ arguments = .ok sql := by
  by_cases hfit : ∃ k e, t.Misfit escape arguments k e
  · -- A first misfit makes both results the same error, so nothing is left to compare.
    obtain ⟨k, e, hk⟩ := hfit
    obtain ⟨j, e', hj⟩ := exists_firstMisfit hk
    refine ⟨fun i e'' hi =>
        ⟨compile_of_firstMisfit mode true hi, compile_of_firstMisfit mode false hi⟩,
      fun hnone => absurd hk (hnone k e), ?_, ?_⟩
    · simp only [compile_of_firstMisfit mode true hj,
        compile_of_firstMisfit mode false hj, reduceCtorEq, exists_false, and_false]
    · intro sql h
      rw [compile_of_firstMisfit mode true hj] at h
      exact absurd h (by simp)
  · have hnone : ∀ k e, ¬ t.Misfit escape arguments k e := fun k e hk => hfit ⟨k, e, hk⟩
    refine ⟨fun k e hk => absurd hk.1 (hnone k e), fun _ => ⟨compile_strict_of_length_lt mode hnone,
      compile_strict_of_lt_length mode hnone, fun heq => ?_⟩, ?_⟩
    · obtain ⟨sql, hsql⟩ := compile_of_length_eq mode hnone heq
      rw [hsql, hsql]
    -- Exact counts fail unless the numbers agree, and lenient compiling is then the same run.
    · rcases Nat.lt_trichotomy arguments.length t.placeholderCount with hlt | heq | hlt
      · simp only [compile_strict_of_length_lt mode hnone hlt, reduceCtorEq,
          exists_false, Nat.ne_of_lt hlt, false_and, false_implies, implies_true, and_self]
      · obtain ⟨sql, hsql⟩ := compile_of_length_eq mode hnone heq
        simp only [hsql, heq, true_and, imp_self, implies_true, and_self]
      · simp only [compile_strict_of_lt_length mode hnone hlt, reduceCtorEq,
          exists_false, Nat.ne_of_gt hlt, false_and, false_implies, implies_true, and_self]

end SqlTemplate.Template
