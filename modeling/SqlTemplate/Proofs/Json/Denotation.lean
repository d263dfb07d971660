import SqlTemplate.Proofs.Json.Integers
import SqlTemplate.Proofs.Json.Values

/-!
What a tree denotes.

`Json.Denotes` says which value a tree stands for, shape by shape and at every depth, without a word
on how it is computed: an integer that fits 64 bits is kept exactly, any other number is a finite
float, the items of an array keep their places, and an object is a mapping that has each name once,
in the order of first occurrence, with what the last member of that name denotes. The value of a
tree is one that it denotes (`denotes_of_toValue?`), and a tree denotes no more than one
(`Denotes.unique`).

Hence what is inside the value of a tree, at any depth, is never the skip sentinel, never an
infinite float, and if it is a mapping its names are distinct (`Denotes.wellFormed_of_inside`).
-/

set_option autoImplicit false

namespace SqlTemplate

namespace Json

/-- Merging keeps the names in the order of first occurrence. -/
theorem map_fst_merge {α : Type} (members : Named α) :
    (merge members).map Prod.fst = (members.map Prod.fst).eraseDups := by
  induction members using List.reverseRecOn with
  | nil => rfl
  | append_singleton members member ih =>
    rw [merge_append_singleton, Named.map_fst_set, ih, List.map_append, List.eraseDups_append]
    simp only [List.mem_eraseDups]
    -- What is removed from the one new name is all that was there.
    by_cases hmem : member.1 ∈ members.map Prod.fst
    · have hremoved : List.removeAll [member.1] (members.map Prod.fst) = [] := by
        simp [List.removeAll, hmem]
      rw [if_pos hmem, List.map_singleton, hremoved, List.eraseDups_nil, List.append_nil]
    · have hkept : List.removeAll [member.1] (members.map Prod.fst) = [member.1] := by
        simp [List.removeAll, hmem]
      rw [if_neg hmem, List.map_singleton, hkept]
      rfl

/-- Merged members have every name once. -/
theorem nodup_map_fst_merge {α : Type} (members : Named α) :
    ((merge members).map Prod.fst).Nodup := by
  induction members using List.reverseRecOn with
  | nil => exact List.nodup_nil
  | append_singleton members member ih =>
    rw [merge_append_singleton]
    exact Named.nodup_map_fst_set member.2 ih

end Json

/-! ## Denotation -/

/-- The numeral stands for an integer: it has neither point nor exponent and is not minus zero. -/
structure Numeral.IsInteger (n : Numeral) (k : Int) : Prop where
  isIntegral : n.isIntegral = true
  not_minus_zero : ¬ (n.negative = true ∧ n.wholeInt = 0)
  eq : n.wholeInt = k

/-- A value and all that is inside it, at any depth. -/
def Value.Inside : Value → Value → Prop := Relation.ReflTransGen Part

/-- Neither the skip sentinel nor an infinite float, and no name twice. This says nothing of what is
inside the value. -/
structure Value.WellFormed (v : Value) : Prop where
  ne_skip : v ≠ .skip
  isFinite {x : Binary64} : v = .float x → x.isFinite = true
  nodup {entries : List (String × Value)} : v = .mapping entries → (entries.map Prod.fst).Nodup

namespace Json

/-- The value that a tree stands for. -/
inductive Denotes : Json → Value → Prop where
  | null : Denotes .null .null
  | bool (truth : Bool) : Denotes (.bool truth) (.bool truth)
  | string (content : String) : Denotes (.string content) (.text content)
  /-- An integer of 64 bits is kept exactly. -/
  | int {n : Numeral} {k : Int64} (h : n.IsInteger k.toInt) : Denotes (.number n) (.int k)
  /-- Any other number is a float, and no infinite one. -/
  | float {n : Numeral} {x : Binary64} (hint : ∀ k : Int64, ¬ n.IsInteger k.toInt)
    (hx : floatOf? n = some x) (hfinite : x.isFinite = true) : Denotes (.number n) (.float x)
  /-- As many items in the same order. -/
  | array {items : List Json} {values : List Value} (hlength : values.length = items.length)
    (hitems : ∀ (i : Nat) (item : Json) (value : Value), items[i]? = some item →
      values[i]? = some value → Denotes item value) : Denotes (.array items) (.sequence values)
  /-- Each name once, in the order of first occurrence, with what its last member denotes. -/
  | object {members : List (String × Json)} {entries : List (String × Value)}
    (hnames : entries.map Prod.fst = (members.map Prod.fst).eraseDups)
    (hdistinct : (entries.map Prod.fst).Nodup)
    (hentries : ∀ (name : String) (member : Json) (value : Value),
      members.reverse.lookup name = some member → (name, value) ∈ entries →
      Denotes member value) : Denotes (.object members) (.mapping entries)

/-- A numeral is an integer exactly by its digits and its range. -/
theorem integerOf?_eq_some_iff {n : Numeral} {k : Int64} :
    integerOf? n = some k ↔ n.IsInteger k.toInt := by
  rw [integerOf?]
  constructor
  · intro h
    split at h
    · rename_i hinteger
      obtain rfl := Option.some.inj h
      refine ⟨hinteger.1, hinteger.2.2, ?_⟩
      have hmin : Int64.minValue.toInt = -2 ^ 63 := by decide
      have hmax : Int64.maxValue.toInt = 2 ^ 63 - 1 := by decide
      rw [hmin, hmax] at hinteger
      exact (Int64.toInt_ofInt_of_le hinteger.2.1.1 (by omega)).symm
    · exact absurd h (by simp)
  -- An integer that is one of 64 bits is in range.
  · rintro ⟨hintegral, hzero, heq⟩
    rw [heq] at hzero ⊢
    rw [if_pos, Int64.ofInt_toInt]
    exact ⟨hintegral, ⟨Int64.minValue_le_toInt k, Int64.toInt_le k⟩, hzero⟩

/-- A float that is read is finite. -/
theorem isFinite_of_floatOf? {n : Numeral} {x : Binary64} (h : floatOf? n = some x) :
    x.isFinite = true := by
  have hmagnitude := (of_floatOf?_eq_some h).2.2
  rw [floatOf?] at h
  split at h
  · rename_i hfinite
    rwa [Binary64.isFinite, hmagnitude]
  · exact absurd h (by simp)

/-- **The value of a tree is one that the tree denotes.** The induction is on the size of the tree:
an item is smaller than its array, and the member that counts is one of the members. -/
theorem denotes_of_toValue? {tree : Json} {value : Value} (h : tree.toValue? = some value) :
    tree.Denotes value := by
  induction hsize : sizeOf tree using Nat.strong_induction_on generalizing tree value with
  | _ size ih =>
    subst hsize
    rcases valueOf_of_toValue? h with _ | _ | hint | ⟨hint, hfloat⟩ | _ | hitems | hmembers
    case null => exact .null
    case bool truth => exact .bool truth
    case text content => exact .string content
    case int => exact .int (integerOf?_eq_some_iff.mp hint)
    case float =>
      refine .float (fun k hk => ?_) hfloat (isFinite_of_floatOf? hfloat)
      rw [integerOf?_eq_some_iff.mpr hk] at hint
      exact absurd hint (by simp)
    case sequence items values =>
      refine .array ?_ fun i item v hitem hv => ?_
      · have hlength := congrArg List.length hitems
        rw [List.length_map, List.length_map] at hlength
        exact hlength.symm
      -- The two lists agree as a whole, so they agree at this place.
      · have hget := congrArg (fun list => list[i]?) hitems
        simp only [List.getElem?_map, hitem, hv, Option.map_some, Option.some.injEq] at hget
        have hlt := List.sizeOf_lt_of_mem (List.mem_of_getElem? hitem)
        exact ih (sizeOf item) (by rw [Json.array.sizeOf_spec]; omega) hget rfl
    case mapping members entries =>
      refine .object ?_ (nodup_map_fst_merge entries) fun name member v hmember hv => ?_
      · have hnames := congrArg (List.map Prod.fst) hmembers
        simp only [List.map_map, Function.comp_def] at hnames
        rw [map_fst_merge]
        exact congrArg List.eraseDups hnames.symm
      -- A name of the mapping finds its value, and the same name finds the last member of the
      -- object.
      · have hfind := Named.lookup_of_mem (nodup_map_fst_merge entries) hv
        rw [lookup_merge] at hfind
        have hget := congrArg (fun list => list.reverse.lookup name) hmembers
        simp only [← List.map_reverse, Named.lookup_map, hmember, hfind, Option.map_some,
          Option.some.injEq] at hget
        have hlt := List.sizeOf_lt_of_mem (List.mem_reverse.mp (Named.mem_of_lookup hmember))
        rw [Prod.mk.sizeOf_spec] at hlt
        exact ih (sizeOf member) (by rw [Json.object.sizeOf_spec]; omega) hget rfl

variable {tree : Json} {value other : Value}

/-- Behind every name of the mapping there is a member, the last one with that name. -/
theorem exists_member {members : List (String × Json)} {entries : List (String × Value)}
    (hnames : entries.map Prod.fst = (members.map Prod.fst).eraseDups) {name : String}
    (hname : name ∈ entries.map Prod.fst) :
    ∃ member, members.reverse.lookup name = some member := by
  rw [hnames, List.mem_eraseDups] at hname
  refine Named.exists_lookup_of_mem ?_
  rwa [List.map_reverse, List.mem_reverse]

/-- **A tree denotes at most one value.** The induction is on what the tree denotes, container by
container: two lists of the same length agree if they agree at every place, and so do two mappings
with the same names. -/
theorem Denotes.unique (h : tree.Denotes value) (hother : tree.Denotes other) : value = other := by
  induction h generalizing other with
  | null | bool | string =>
    cases hother
    rfl
  | int h =>
    cases hother with
    | int h' => rw [Int64.toInt_inj.mp (h.eq.symm.trans h'.eq)]
    | float hint' => exact absurd h (hint' _)
  | float hint hx =>
    cases hother with
    | int h' => exact absurd h' (hint _)
    | float _ hx' => rw [Option.some.inj (hx.symm.trans hx')]
  | array hlength hitems ih =>
    cases hother with
    | array hlength' hitems' =>
      refine congrArg Value.sequence (List.ext_getElem (hlength.trans hlength'.symm) ?_)
      intro i hi hi'
      have hitem := List.getElem?_eq_getElem (hlength ▸ hi)
      exact ih i _ _ hitem (List.getElem?_eq_getElem hi)
        (hitems' i _ _ hitem (List.getElem?_eq_getElem hi'))
  | @object members entries hnames hdistinct hentries ih =>
    cases hother with
    | @object _ entries' hnames' hdistinct' hentries' =>
      have hsame : entries.map Prod.fst = entries'.map Prod.fst := hnames.trans hnames'.symm
      have hlength := congrArg List.length hsame
      rw [List.length_map, List.length_map] at hlength
      refine congrArg Value.mapping (List.ext_getElem hlength fun i hi hi' => ?_)
      -- The names agree, and a name stands once, so the same member decides both values.
      have hname : entries[i].1 = entries'[i].1 := by
        have hget := congrArg (fun names => names[i]?) hsame
        simpa [hi, hi'] using hget
      have hentry := List.getElem_mem hi
      have hentry' := List.getElem_mem hi'
      obtain ⟨member, hmember⟩ := exists_member hnames (List.mem_map_of_mem hentry)
      refine Prod.ext hname (ih _ member _ hmember hentry ?_)
      rw [hname] at hmember
      exact hentries' _ member _ hmember hentry'

/-! ## What is inside -/

/-- A part of what a tree denotes is denoted by a tree. -/
theorem Denotes.exists_of_part (h : tree.Denotes value) {part : Value}
    (hpart : Value.Part part value) : ∃ t : Json, t.Denotes part := by
  cases hpart with
  | item hmem =>
    cases h with
    | @array items values hlength hitems =>
      obtain ⟨i, hi⟩ := List.getElem?_of_mem hmem
      obtain ⟨hlt, -⟩ := List.getElem?_eq_some_iff.mp hi
      exact ⟨_, hitems i _ part (List.getElem?_eq_getElem (hlength ▸ hlt)) hi⟩
  | @entry name part entries hmem =>
    cases h with
    | @object members entries hnames hdistinct hentries =>
      obtain ⟨member, hmember⟩ := exists_member hnames (List.mem_map_of_mem hmem)
      exact ⟨member, hentries name member part hmember hmem⟩

theorem Denotes.exists_of_inside (h : tree.Denotes value) {inner : Value}
    (hinside : Value.Inside inner value) : ∃ t : Json, t.Denotes inner := by
  induction hinside using Relation.ReflTransGen.head_induction_on with
  | refl => exact ⟨tree, h⟩
  | head hpart _ ih =>
    obtain ⟨t, ht⟩ := ih
    exact ht.exists_of_part hpart

/-- What a tree denotes is well formed. -/
theorem Denotes.wellFormed (h : tree.Denotes value) : value.WellFormed where
  ne_skip hskip := by
    subst hskip
    cases h
  isFinite hfloat := by
    subst hfloat
    cases h with
    | float _ _ hfinite => exact hfinite
  nodup hmapping := by
    subst hmapping
    cases h with
    | object _ hdistinct _ => exact hdistinct

/-- **All that is inside a denoted value is well formed,** at any depth. -/
theorem Denotes.wellFormed_of_inside (h : tree.Denotes value) {inner : Value}
    (hinside : Value.Inside inner value) : inner.WellFormed := by
  obtain ⟨t, ht⟩ := h.exists_of_inside hinside
  exact ht.wellFormed

end Json

end SqlTemplate
