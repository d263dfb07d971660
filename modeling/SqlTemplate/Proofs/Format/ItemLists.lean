import SqlTemplate.Literal
import SqlTemplate.Proofs.Results

/-!
Reading lists of items back.

Literals, names and assignments all stand in lists of one form, with a comma and a space between two
items. A reader of a list needs only a reader of one item, which says where the item ends. Main
statement: where every item is written so that its reader takes it back and stops at a comma, the
list is read as exactly the items, in order and in number (`readAll?_commaSeparated`). So whatever
separates items inside of them is for the reader of one item to see through.
-/

set_option autoImplicit false

namespace SqlTemplate

/-- A reader of one item at the head of a text, which gives what follows the item. -/
structure ItemReader (α : Type) where
  read? : List Char → Option (α × List Char)
  /-- There is no item in nothing. -/
  read?_nil : read? [] = none
  /-- Reading goes forward. -/
  length_le : ∀ {text : List Char} {a : α} {rest : List Char},
    read? text = some (a, rest) → rest.length ≤ text.length

namespace ItemReader

variable {α β : Type} {r : ItemReader α} {text rest : List Char} {a : α}

/-- Items with a comma and a space between two of them, and nothing else. -/
def readFrom? (r : ItemReader α) (text : List Char) : Option (List α) :=
  match _ : r.read? text with
  | some (a, []) => some [a]
  | some (a, ',' :: ' ' :: rest) => (r.readFrom? rest).map (List.cons a)
  | _ => none
termination_by text.length
decreasing_by
  rename_i h
  have := r.length_le h
  simp only [List.length_cons] at this
  omega

/-- All items of a list, which may be empty. -/
def readAll? (r : ItemReader α) (text : List Char) : Option (List α) :=
  if text = [] then some [] else r.readFrom? text

/-- An item with nothing behind it is the last one. -/
theorem readFrom?_last (h : r.read? text = some (a, [])) : r.readFrom? text = some [a] := by
  rw [readFrom?]
  split
  · rename_i heq
    obtain ⟨rfl, -⟩ := Prod.mk.inj (Option.some.inj (h.symm.trans heq))
    rfl
  · rename_i heq
    exact absurd (Prod.mk.inj (Option.some.inj (h.symm.trans heq))).2 (by simp)
  · rename_i hlast _
    exact absurd h (hlast a)

/-- Behind an item and a comma the list goes on. -/
theorem readFrom?_comma (h : r.read? text = some (a, ',' :: ' ' :: rest)) :
    r.readFrom? text = (r.readFrom? rest).map (List.cons a) := by
  rw [readFrom?]
  split
  · rename_i heq
    exact absurd (Prod.mk.inj (Option.some.inj (h.symm.trans heq))).2 (by simp)
  · rename_i heq
    obtain ⟨rfl, hrest⟩ := Prod.mk.inj (Option.some.inj (h.symm.trans heq))
    rw [(List.cons.inj (List.cons.inj hrest).2).2]
  · rename_i hcomma
    exact absurd h (hcomma a rest)

/-! ## One item -/

/-- An item is read off the head of a text, if the text ends behind it or a comma follows. -/
def Reads (r : ItemReader α) (written : String) (a : α) : Prop :=
  ∀ rest, (∀ c, rest.head? = some c → c = ',') → r.read? (written.toList ++ rest) = some (a, rest)

/-- No item is read from the empty text. -/
theorem Reads.ne_empty {written : String} (h : r.Reads written a) : written.toList ≠ [] := by
  intro hnil
  have hread := h [] nofun
  rw [hnil, List.nil_append, r.read?_nil] at hread
  exact absurd hread (by simp)

/-! ## Lists -/

/-- One item more at the front of a list. -/
theorem toList_commaSeparated_cons_cons (w next : String) (ws : List String) :
    (commaSeparated (w :: next :: ws)).toList
      = w.toList ++ ',' :: ' ' :: (commaSeparated (next :: ws)).toList := by
  rw [commaSeparated, String.intercalate_cons_cons, String.toList_append, String.toList_append,
    List.append_assoc]
  rfl

/-- What is written with commas in between is read item by item. -/
theorem readFrom?_commaSeparated {w : String} {ws : List String} {as : List α}
    (hfirst : r.Reads w a) (h : List.Forall₂ r.Reads ws as) :
    r.readFrom? (commaSeparated (w :: ws)).toList = some (a :: as) := by
  induction h generalizing w a with
  | nil =>
    have hread := hfirst [] (by simp)
    rw [List.append_nil] at hread
    rw [commaSeparated, String.intercalate_singleton]
    exact readFrom?_last hread
  | @cons next _ ws _ hnext _ ih =>
    have hread := hfirst (',' :: ' ' :: (commaSeparated (next :: ws)).toList) (by simp)
    rw [toList_commaSeparated_cons_cons, readFrom?_comma hread, ih hnext, Option.map_some]

/-- A list with items is not the empty text. -/
theorem commaSeparated_ne_empty {w : String} (hfirst : r.Reads w a) (ws : List String) :
    commaSeparated (w :: ws) ≠ "" := by
  rw [Ne, ← String.toList_eq_nil_iff]
  cases ws with
  | nil =>
    rw [commaSeparated, String.intercalate_singleton]
    exact hfirst.ne_empty
  | cons next ws =>
    rw [toList_commaSeparated_cons_cons]
    exact List.append_ne_nil_of_right_ne_nil _ (List.cons_ne_nil _ _)

/-- **A list is read back item by item,** and only the empty list is written as nothing. -/
theorem readAll?_commaSeparated {ws : List String} {as : List α}
    (h : List.Forall₂ r.Reads ws as) :
    r.readAll? (commaSeparated ws).toList = some as ∧ (commaSeparated ws = "" ↔ as = []) := by
  cases h with
  | nil => exact ⟨rfl, iff_of_true rfl rfl⟩
  | @cons w a ws as hfirst hrest =>
    have hne := commaSeparated_ne_empty hfirst ws
    refine ⟨?_, iff_of_false hne (List.cons_ne_nil a as)⟩
    rw [readAll?, if_neg (mt String.toList_eq_nil_iff.mp hne),
      readFrom?_commaSeparated hfirst hrest]

/-- What is written item by item is read item by item, if each item is read as its meaning. -/
theorem exists_forall₂_reads {write : β → Except Error String} {meaning : β → Option α}
    {items : List β} {ws : List String}
    (hitem : ∀ item ∈ items, ∀ w, write item = .ok w →
      ∃ a, meaning item = some a ∧ r.Reads w a)
    (h : items.mapM write = .ok ws) :
    ∃ as : List α, items.map meaning = as.map some ∧ List.Forall₂ r.Reads ws as := by
  have hwritten := forall₂_of_mapM h
  clear h
  induction hwritten with
  | nil => exact ⟨[], rfl, .nil⟩
  | @cons item w items ws hw _ ih =>
    rw [List.forall_mem_cons] at hitem
    obtain ⟨a, ha, hreads⟩ := hitem.1 w hw
    obtain ⟨as, has, hall⟩ := ih hitem.2
    refine ⟨a :: as, ?_, .cons hreads hall⟩
    rw [List.map_cons, List.map_cons, ha, has]

end ItemReader

end SqlTemplate
