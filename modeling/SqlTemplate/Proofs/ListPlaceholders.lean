import SqlTemplate.Proofs.ExactCounts
import SqlTemplate.Proofs.Format.ItemLists
import SqlTemplate.Proofs.Format.Rejections
import SqlTemplate.Proofs.Rewriting

/-!
A list in place of its items.

An array marker that takes a list writes the items as literals with commas between them. A template
text that spells out one scalar marker for each item, with commas between them, says the same thing
in another way: the commas are now text of the template, every item is an argument of its own, and
the template is read, served and resolved at a length that depends on the list.
`compile_list_eq_compile_placeholders` says that the two agree, in their SQL and in their failures,
also with text around them.

With exactly one argument for each marker a run is a walk over pairs of a marker and an argument
(`Template.compile_eq_mapM`), whether counts must be exact or not. So both sides come down to one
walk over the items.
-/

set_option autoImplicit false

namespace SqlTemplate

variable {escape : Escaper} {options : Options} {items : List Value} {before after : String}

/-! ## One argument for each marker -/

namespace Template

variable {t : Template} {arguments : List Value}

/-- What request `k` is answered with if the markers are written as the given texts. -/
def answerOf (arguments : List Value) (ws : List String) (k : Nat) : String × Bool :=
  (ws.getD k "", (argumentAt arguments k).isSkip)

/-- If all arguments can be formatted, the texts are the answers. -/
theorem answers_of_mapM {strict : Bool} {ws : List String}
    (hlength : arguments.length = t.markers.length)
    (h : (t.markers.zip arguments).mapM (fun pair => pair.1.format escape pair.2) = .ok ws) :
    (Cursor.start arguments strict).Answers escape t.markers (answerOf arguments ws) := by
  intro i m hm
  have hi : i < arguments.length := hlength ▸ (List.getElem?_eq_some_iff.mp hm).1
  have hpair : (t.markers.zip arguments)[i]? = some (m, arguments[i]) :=
    List.getElem?_zip_eq_some.mpr ⟨hm, List.getElem?_eq_getElem hi⟩
  obtain ⟨hzip, hget⟩ := List.getElem?_eq_some_iff.mp hpair
  have hwritten := forall₂_of_mapM h
  have hws : i < ws.length := hwritten.length_eq ▸ hzip
  have hformat := hwritten.get hzip hws
  simp only [List.get_eq_getElem, hget] at hformat
  rw [Cursor.reply_of_lt hi, argumentAt, List.getElem?_eq_getElem hi, Option.getD_some, hformat]
  simp only [Except.map, answerOf, Cursor.start, Nat.zero_add, argumentAt,
    List.getElem?_eq_getElem hi, List.getD_eq_getElem?_getD, List.getElem?_eq_getElem hws,
    Option.getD_some]

/-- If one cannot, the first one that cannot is the misfit. -/
theorem firstMisfit_of_mapM {e : Error}
    (h : (t.markers.zip arguments).mapM (fun pair => pair.1.format escape pair.2) = .error e) :
    ∃ k, t.FirstMisfit escape arguments k e := by
  obtain ⟨⟨m, v⟩, he, left, right, hzip, -, hleft⟩ := mapM_eq_error_iff.mp h
  have hpair : (t.markers.zip arguments)[left.length]? = some (m, v) := by
    rw [hzip, List.getElem?_append_right (Nat.le_refl _), Nat.sub_self, List.getElem?_cons_zero]
  obtain ⟨hm, hv⟩ := List.getElem?_zip_eq_some.mp hpair
  refine ⟨left.length, ⟨m, v, hm, hv, he⟩, ?_⟩
  rintro j e' hj ⟨m', v', hm', hv', he'⟩
  have hpair' : (t.markers.zip arguments)[j]? = some (m', v') :=
    List.getElem?_zip_eq_some.mpr ⟨hm', hv'⟩
  rw [hzip, List.getElem?_append_left hj] at hpair'
  exact hleft _ (List.mem_of_getElem? hpair') ⟨e', he'⟩

/-- **With one argument for each marker, compiling goes over markers and arguments in pairs,** with
exact counts and without, and then fills in what was written. -/
theorem compile_eq_mapM (hlength : arguments.length = t.markers.length) :
    t.compile escape options arguments
      = (fun ws => Rendered.resolve options.elision (t.fill (answerOf arguments ws)))
          <$> (t.markers.zip arguments).mapM fun pair => pair.1.format escape pair.2 := by
  cases h : (t.markers.zip arguments).mapM (fun pair => pair.1.format escape pair.2) with
  | ok ws =>
    rw [compile_of_answers (answers_of_mapM hlength h), if_neg]
    · rfl
    · rintro ⟨-, hlt⟩
      exact absurd hlength (Nat.ne_of_gt hlt)
  | error e =>
    obtain ⟨k, hk⟩ := firstMisfit_of_mapM h
    exact compile_of_firstMisfit options.elision options.strict hk

end Template

/-! ## Templates without blocks -/

section

variable {mode : ElisionMode} {answer : Nat → String × Bool} {k : Nat} {run l : List Char}

/-- Plain text in front of a marker, or of the end, stays as it is. -/
theorem resolve_ofText_run (hrun : ∀ c ∈ run, isPlain c = true)
    (hstop : ∀ d, l.head? = some d → isPlain d = false) :
    Rendered.resolve mode (Segment.fillAll answer k (Segment.ofText (run ++ l)))
      = String.ofList run
        ++ Rendered.resolve mode (Segment.fillAll answer k (Segment.ofText l)) := by
  by_cases hempty : run = []
  · subst hempty
    rw [List.nil_append, String.ofList_nil, String.empty_append]
  · rw [Segment.ofText_run hempty hrun hstop, Segment.resolve_fillAll_text]

theorem markers_ofText_run (hrun : ∀ c ∈ run, isPlain c = true)
    (hstop : ∀ d, l.head? = some d → isPlain d = false) :
    (Segment.ofText (run ++ l)).flatMap Segment.markers
      = (Segment.ofText l).flatMap Segment.markers := by
  by_cases hempty : run = []
  · rw [hempty, List.nil_append]
  · rw [Segment.ofText_run hempty hrun hstop, List.flatMap_cons, Segment.markers_piece]
    rfl

theorem resolve_ofText_nil :
    Rendered.resolve mode (Segment.fillAll answer k (Segment.ofText [])) = "" := by
  rw [Segment.ofText_plain noBrace_nil, Segment.resolve_fillAll_pieces, Piece.ofText,
    Token.scan.eq_def]
  rfl

/-- A plain text is resolved to itself. -/
theorem resolve_ofText_plain (hrun : ∀ c ∈ run, isPlain c = true) :
    Rendered.resolve mode (Segment.fillAll answer k (Segment.ofText run)) = String.ofList run := by
  have h := @resolve_ofText_run mode answer k run [] hrun nofun
  rwa [List.append_nil, resolve_ofText_nil, String.append_empty] at h

theorem markers_ofText_plain (hrun : ∀ c ∈ run, isPlain c = true) :
    (Segment.ofText run).flatMap Segment.markers = [] := by
  have h := @markers_ofText_run run [] hrun nofun
  rw [List.append_nil] at h
  rw [h, Segment.ofText_plain noBrace_nil, Piece.ofText, Token.scan.eq_def]
  rfl

/-- A template that starts with a plain run has the markers behind it. -/
theorem markers_parse_run {source : String} (hsource : source.toList = run ++ l)
    (hrun : ∀ c ∈ run, isPlain c = true) (hstop : ∀ d, l.head? = some d → isPlain d = false) :
    (Template.parse source).markers = (Segment.ofText l).flatMap Segment.markers := by
  rw [Template.markers_eq_flatMap, Segment.segments_parse, hsource, markers_ofText_run hrun hstop]

/-- A template that starts with a plain run is resolved to this run and what is behind it. -/
theorem resolve_parse_run {source : String} (hsource : source.toList = run ++ l)
    (hrun : ∀ c ∈ run, isPlain c = true) (hstop : ∀ d, l.head? = some d → isPlain d = false) :
    Rendered.resolve mode ((Template.parse source).fill answer)
      = String.ofList run
        ++ Rendered.resolve mode (Segment.fillAll answer 0 (Segment.ofText l)) := by
  rw [Template.fill, Segment.segments_parse, hsource, resolve_ofText_run hrun hstop]

theorem resolve_marker (m : Marker) (rest : List Segment) :
    Rendered.resolve mode (Segment.fillAll answer k (.piece (.marker m) :: rest))
      = (answer k).1 ++ Rendered.resolve mode (Segment.fillAll answer (k + 1) rest) :=
  String.join_cons

end

/-! ## The two templates -/

/-- The template text of so many scalar placeholders. -/
def placeholders (n : Nat) : String := commaSeparated (List.replicate n "?")

theorem toList_placeholders_one : (placeholders 1).toList = ['?'] := rfl

/-- One more placeholder stands in front, with a comma and a blank. -/
theorem toList_placeholders_succ (n : Nat) :
    (placeholders (n + 2)).toList = '?' :: ([',', ' '] ++ (placeholders (n + 1)).toList) :=
  ItemReader.toList_commaSeparated_cons_cons "?" "?" (List.replicate n "?")

theorem isPlain_of_mem_comma : ∀ c ∈ [',', ' '], isPlain c = true :=
  List.all_eq_true.mp (by decide)

theorem uncoded_comma (l : List Char) : Uncoded ([',', ' '] ++ l) := by
  intro c hc
  rw [← Option.some.inj hc]
  rfl

/-- A placeholder list begins with a question mark. -/
theorem exists_toList_placeholders (n : Nat) :
    ∃ l, (placeholders (n + 1)).toList = '?' :: l := by
  cases n with
  | zero => exact ⟨[], rfl⟩
  | succ n => exact ⟨_, toList_placeholders_succ n⟩

/-- A list of placeholders does not go on with a plain character. -/
theorem stop_placeholders (n : Nat) (post : List Char) :
    ∀ d, ((placeholders (n + 1)).toList ++ post).head? = some d → isPlain d = false := by
  obtain ⟨l, hl⟩ := exists_toList_placeholders n
  rw [hl]
  rintro d hd
  rw [← Option.some.inj hd]
  rfl

/-- The segments of a placeholder list: the commas are text between the markers. -/
theorem ofText_placeholders_succ (n : Nat) (post : List Char) :
    Segment.ofText ((placeholders (n + 2)).toList ++ post)
      = .piece (.marker .scalar) :: .piece (.text ", ")
        :: Segment.ofText ((placeholders (n + 1)).toList ++ post) := by
  rw [toList_placeholders_succ, List.cons_append, List.append_assoc,
    Segment.ofText_bare (uncoded_comma _),
    Segment.ofText_run (List.cons_ne_nil _ _) isPlain_of_mem_comma (stop_placeholders n post)]

/-- One placeholder is the scalar marker. -/
theorem ofText_placeholders_one {post : List Char} (hpost : Uncoded post) :
    Segment.ofText ((placeholders 1).toList ++ post)
      = .piece (.marker .scalar) :: Segment.ofText post := by
  rw [toList_placeholders_one, List.singleton_append, Segment.ofText_bare hpost]

/-- A list of placeholders has as many scalar markers. -/
theorem markers_placeholders (n : Nat) {post : List Char} (hpost : Uncoded post)
    (hplain : ∀ c ∈ post, isPlain c = true) :
    (Segment.ofText ((placeholders (n + 1)).toList ++ post)).flatMap Segment.markers
      = List.replicate (n + 1) .scalar := by
  induction n with
  | zero => rw [ofText_placeholders_one hpost, List.flatMap_cons, markers_ofText_plain hplain]; rfl
  | succ n ih => rw [ofText_placeholders_succ, List.flatMap_cons, List.flatMap_cons, ih]; rfl

/-- The answers stand where the markers stood, with the commas of the template between them. -/
theorem resolve_placeholders {mode : ElisionMode} {answer : Nat → String × Bool} {k : Nat}
    {w : String} {ws : List String} {post : List Char}
    (hanswer : ∀ i v, (w :: ws)[i]? = some v → (answer (k + i)).1 = v) (hpost : Uncoded post)
    (hplain : ∀ c ∈ post, isPlain c = true) :
    Rendered.resolve mode (Segment.fillAll answer k
        (Segment.ofText ((placeholders (ws.length + 1)).toList ++ post)))
      = commaSeparated (w :: ws) ++ String.ofList post := by
  have hfirst : (answer k).1 = w := hanswer 0 w rfl
  -- The induction is on the answers behind the first; each brings a comma of the template with it.
  induction ws generalizing k w with
  | nil =>
    rw [List.length_nil, ofText_placeholders_one hpost, resolve_marker, hfirst,
      resolve_ofText_plain hplain, commaSeparated, String.intercalate_singleton]
  | cons next ws ih =>
    have hrest : ∀ i v, (next :: ws)[i]? = some v → (answer (k + 1 + i)).1 = v := by
      intro i v hv
      rw [Nat.add_assoc, Nat.add_comm 1 i]
      exact hanswer (i + 1) v hv
    rw [List.length_cons, ofText_placeholders_succ, resolve_marker, hfirst,
      Segment.resolve_fillAll_text, ih hrest (hrest 0 next rfl), commaSeparated, commaSeparated,
      String.intercalate_cons_cons, String.append_assoc, String.append_assoc]

theorem uncoded_of_notMem {l : List Char}
    (h : ∀ c, l.head? = some c → c ∉ ['d', 'f', 'a', '#', 's']) : Uncoded l := by
  intro c hc
  cases hm : Marker.ofChar? c with
  | none => rfl
  | some m =>
    refine absurd ?_ (h c hc)
    rw [code_of_ofChar? hm]
    cases m <;> decide

section

variable (hbefore : ∀ c ∈ before.toList, isPlain c = true)
  (hafter : ∀ c ∈ after.toList, isPlain c = true)
include hbefore hafter

/-- With a list for the array marker. -/
theorem compile_list (escape : Escaper) (options : Options) (items : List Value) :
    compile escape options (before ++ "?a" ++ after) [.sequence items]
      = (fun ws => before ++ commaSeparated ws ++ after) <$> items.mapM (Value.literal escape) := by
  have hsource : (before ++ "?a" ++ after).toList
      = before.toList ++ '?' :: Marker.array.code :: after.toList := by
    rw [String.toList_append, String.toList_append, List.append_assoc]
    rfl
  have hstop : ∀ d, ('?' :: Marker.array.code :: after.toList).head? = some d →
      isPlain d = false := fun d hd => (Option.some.inj hd) ▸ rfl
  have hmarkers : (Template.parse (before ++ "?a" ++ after)).markers = [.array] := by
    rw [markers_parse_run hsource hbefore hstop, Segment.ofText_coded, List.flatMap_cons,
      markers_ofText_plain hafter]
    rfl
  -- One marker, so the result is a function of its answer only.
  have hresolve : ∀ answer, Rendered.resolve options.elision
        ((Template.parse (before ++ "?a" ++ after)).fill answer)
      = before ++ (answer 0).1 ++ after := by
    intro answer
    rw [resolve_parse_run hsource hbefore hstop, Segment.ofText_coded, resolve_marker,
      resolve_ofText_plain hafter, String.ofList_toList, String.ofList_toList, String.append_assoc]
  rw [compile, Template.compile_eq_mapM (by rw [hmarkers]; rfl), hmarkers]
  simp only [hresolve, List.zip_cons_cons, List.zip_nil_right, List.mapM_cons, List.mapM_nil]
  show _ <$> (do let w ← Value.formatArray escape (.sequence items); pure [w]) = _
  rw [Value.formatArray]
  cases items.mapM (Value.literal escape) <;> rfl

/-- With one argument for each scalar marker. -/
theorem compile_placeholders (escape : Escaper) (options : Options) (hcode : Uncoded after.toList)
    (hne : items ≠ []) :
    compile escape options (before ++ placeholders items.length ++ after) items
      = (fun ws => before ++ commaSeparated ws ++ after)
          <$> items.mapM (Marker.scalar.format escape) := by
  obtain ⟨n, hn⟩ : ∃ n, items.length = n + 1 :=
    Nat.exists_eq_succ_of_ne_zero (mt List.length_eq_zero_iff.mp hne)
  rw [hn]
  have hsource : (before ++ placeholders (n + 1) ++ after).toList
      = before.toList ++ ((placeholders (n + 1)).toList ++ after.toList) := by
    rw [String.toList_append, String.toList_append, List.append_assoc]
  have hstop := stop_placeholders n after.toList
  have hmarkers : (Template.parse (before ++ placeholders (n + 1) ++ after)).markers
      = List.replicate (n + 1) .scalar := by
    rw [markers_parse_run hsource hbefore hstop, markers_placeholders n hcode hafter]
  have hzip : (List.replicate (n + 1) Marker.scalar).zip items
      = items.map fun v => (Marker.scalar, v) := by
    rw [← hn, List.zip, ← List.map_const, List.zipWith_map_left, List.zipWith_self]
    simp only [Function.const_apply]
  rw [compile, Template.compile_eq_mapM (by rw [hmarkers, List.length_replicate, hn]), hmarkers,
    hzip, List.mapM_map]
  show _ <$> items.mapM (Marker.scalar.format escape) = _
  cases hws : items.mapM (Marker.scalar.format escape) with
  | error e =>
    -- Nothing is filled in after a failure.
    show Except.error e = _
    rfl
  | ok ws =>
    have hlength : ws.length = n + 1 := by rw [← (forall₂_of_mapM hws).length_eq, hn]
    obtain ⟨w, ws, rfl⟩ := List.exists_cons_of_length_eq_add_one hlength
    have hanswer : ∀ i v, (w :: ws)[i]? = some v →
        (Template.answerOf items (w :: ws) (0 + i)).1 = v := by
      intro i v hv
      rw [Template.answerOf, Nat.zero_add, List.getD_eq_getElem?_getD, hv, Option.getD_some]
    rw [List.length_cons, Nat.add_right_cancel_iff] at hlength
    subst hlength
    refine congrArg Except.ok ?_
    show Rendered.resolve options.elision (Template.fill _ _)
      = before ++ commaSeparated (w :: ws) ++ after
    rw [resolve_parse_run hsource hbefore hstop, resolve_placeholders hanswer hcode hafter,
      String.ofList_toList, String.ofList_toList, String.append_assoc]

end

/-! ## Agreement -/

/-- A scalar that is not left out is written at a scalar marker as it stands in a list. -/
theorem Marker.format_scalar_eq_literal {v : Value}
    (hv : v.kind ∉ [Kind.sequence, .mapping, .skip]) :
    Marker.scalar.format escape v = v.literal escape := by
  cases v with
  | sequence | mapping | skip => exact absurd hv (by simp [Value.kind])
  | null | bool | int | float | text => rfl

/-- Among scalars that are not left out, only floats have no literal. -/
theorem Value.unquotable_scalar_iff {v : Value} {e : Error}
    (hv : v.kind ∉ [Kind.sequence, .mapping, .skip]) :
    v.Unquotable e
      ↔ (∃ x, v = .float x ∧ x.isFinite = false) ∧ e = .unquotable "non-finite float" := by
  constructor
  · intro h
    cases h with
    | infinite h => exact ⟨⟨_, rfl, h⟩, rfl⟩
    | sequence | mapping | skip => exact absurd hv (by simp [kind])
  · rintro ⟨⟨x, rfl, h⟩, rfl⟩
    exact .infinite h

/-- Going over scalars that are not left out fails at a float that is not finite only. -/
theorem Value.exists_float_of_mapM_literal {e : Error}
    (hitems : ∀ v ∈ items, v.kind ∉ [Kind.sequence, .mapping, .skip])
    (h : items.mapM (literal escape) = .error e) :
    (∃ x, .float x ∈ items ∧ x.isFinite = false) ∧ e = .unquotable "non-finite float" := by
  obtain ⟨v, he, hfirst⟩ := mapM_eq_error_iff.mp h
  obtain ⟨⟨x, rfl, hx⟩, rfl⟩ :=
    (unquotable_scalar_iff (hitems v hfirst.mem)).mp (literal_eq_error_iff.mp he)
  exact ⟨⟨x, hfirst.mem, hx⟩, rfl⟩

/-- **A list placeholder agrees with one scalar placeholder for each item.** The items are scalars
that are not left out, at least one, and the text around is plain, where what follows does not begin
with a type code. Then the template with the array marker and the list as its argument compiles to
the same as the template with the scalar markers and the items as its arguments, under every
escaper, both ways of counting and both modes of elision: to the text around the literals of the
items if all floats among them are finite, and otherwise to the error of the first that is not. -/
theorem compile_list_eq_compile_placeholders (escape : Escaper) (options : Options)
    (hne : items ≠ []) (hitems : ∀ v ∈ items, v.kind ∉ [Kind.sequence, .mapping, .skip])
    (hbefore : ∀ c ∈ before.toList, isPlain c = true)
    (hafter : ∀ c ∈ after.toList, isPlain c = true)
    (hcode : ∀ c, after.toList.head? = some c → c ∉ ['d', 'f', 'a', '#', 's']) :
    compile escape options (before ++ "?a" ++ after) [.sequence items]
        = compile escape options (before ++ placeholders items.length ++ after) items
      ∧ ((∀ x, .float x ∈ items → x.isFinite = true) →
        ∃ ws, List.Forall₂ (fun v w => v.literal escape = .ok w) items ws
          ∧ compile escape options (before ++ placeholders items.length ++ after) items
            = .ok (before ++ commaSeparated ws ++ after))
      ∧ ∀ x, .float x ∈ items → x.isFinite = false →
        compile escape options (before ++ placeholders items.length ++ after) items
          = .error (.unquotable "non-finite float") := by
  have hscalar : items.mapM (Marker.scalar.format escape) = items.mapM (Value.literal escape) :=
    mapM_congr fun v hv => Marker.format_scalar_eq_literal (hitems v hv)
  -- Both sides are the same chain of literals between the same texts.
  rw [compile_list hbefore hafter,
    compile_placeholders hbefore hafter escape options (uncoded_of_notMem hcode) hne, hscalar]
  refine ⟨rfl, fun hfinite => ?_, fun x hx hinfinite => ?_⟩
  · cases hws : items.mapM (Value.literal escape) with
    | ok ws => exact ⟨ws, forall₂_of_mapM hws, rfl⟩
    | error e =>
      obtain ⟨⟨x, hx, hinfinite⟩, -⟩ := Value.exists_float_of_mapM_literal hitems hws
      exact absurd (hfinite x hx) (by simp [hinfinite])
  · have hliteral : (Value.float x).literal escape = .error (.unquotable "non-finite float") :=
      Value.literal_eq_error_iff.mpr (.infinite hinfinite)
    cases hws : items.mapM (Value.literal escape) with
    | ok ws =>
      obtain ⟨w, hw⟩ := exists_of_mapM_ok hws hx
      exact absurd (hliteral.symm.trans hw) (by simp)
    | error e =>
      obtain ⟨-, rfl⟩ := Value.exists_float_of_mapM_literal hitems hws
      rfl

/-- A condition on three items, with exact counts and the textual mode. -/
theorem compile_list_in_condition :
    [Value.null, .int (-7), .text "O'Brien"] ≠ []
      ∧ (∀ v ∈ [Value.null, .int (-7), .text "O'Brien"],
        v.kind ∉ [Kind.sequence, .mapping, .skip])
      ∧ (∀ c ∈ "x IN (".toList, isPlain c = true) ∧ (∀ c ∈ ") LIMIT 5".toList, isPlain c = true)
      ∧ (∀ c, ") LIMIT 5".toList.head? = some c → c ∉ ['d', 'f', 'a', '#', 's'])
      ∧ compile EscapingMode.mysql.escaper ⟨.textual, true⟩ ("x IN (" ++ "?a" ++ ") LIMIT 5")
          [.sequence [.null, .int (-7), .text "O'Brien"]]
        = .ok "x IN (NULL, -7, 'O\\'Brien') LIMIT 5" := by
  have hitems : ∀ v ∈ [Value.null, .int (-7), .text "O'Brien"],
      v.kind ∉ [Kind.sequence, .mapping, .skip] := by
    simp [Value.kind]
  have hbefore : ∀ c ∈ "x IN (".toList, isPlain c = true :=
    List.all_eq_true.mp (by decide +kernel)
  have hafter : ∀ c ∈ ") LIMIT 5".toList, isPlain c = true :=
    List.all_eq_true.mp (by decide +kernel)
  have hcode : ∀ c, ") LIMIT 5".toList.head? = some c → c ∉ ['d', 'f', 'a', '#', 's'] := by
    intro c hc
    obtain rfl : c = ')' := (Option.some.inj hc).symm
    decide
  refine ⟨List.cons_ne_nil _ _, hitems, hbefore, hafter, hcode, ?_⟩
  rw [(compile_list_eq_compile_placeholders EscapingMode.mysql.escaper ⟨.textual, true⟩
    (List.cons_ne_nil _ _) hitems hbefore hafter hcode).1]
  decide +kernel

end SqlTemplate
