import ResponseExport.Survey.Answer
import ResponseExport.Proofs.Decimal.Text
import ResponseExport.Proofs.Json.Written

/-!
# `ResponseExport.Proofs.Survey.Leaves`: lists in cells

The cell of a list is made level by level: each element becomes a text, and the texts are
joined. The levels leave no trace. Joins of joins are joins, as long as none of them joins
nothing (`join_map_join`), so a cell is one join over all leaves (`cell_eq_join_leaves`). A
list without elements would join nothing; it counts as a leaf, whose text is empty.

So a cell does not tell how the elements of a list are grouped. `Grouped` says what grouping
may do: put neighbours into a list, group the elements of this list in turn, and group those
of a list that was there before.
-/

set_option autoImplicit false

namespace ResponseExport.Survey.Answer

open ResponseExport.Json (Value)

/-! ### Leaves -/

mutual

/-- The texts of the leaves of a value, in order. An empty list is a leaf, and so is an object. -/
def leaves : Value → List String
  | .null => [""]
  | .boolean true => ["true"]
  | .boolean false => ["false"]
  | .number (.integer n) => [toString n]
  | .number (.double bits) => [Decimal.text bits]
  | .string s => [s]
  | .array [] => [""]
  | .array (v :: vs) => leaves v ++ leavesOf vs
  | .object members => [(Value.object members).text]

/-- The texts of the leaves of elements, in order. -/
def leavesOf : List Value → List String
  | [] => []
  | v :: vs => leaves v ++ leavesOf vs

end

variable {items groups : List Value}

theorem leaves_array (h : items ≠ []) : leaves (.array items) = leavesOf items := by
  cases items with
  | nil => exact absurd rfl h
  | cons v vs => rfl

theorem leavesOf_eq_flatMap (items : List Value) : leavesOf items = items.flatMap leaves := by
  induction items with
  | nil => rfl
  | cons v vs ih => rw [leavesOf, ih, List.flatMap_cons]

/-- No value is without leaves. -/
theorem leaves_ne_nil (v : Value) : leaves v ≠ [] := by
  induction v with
  | boolean b => cases b <;> exact List.cons_ne_nil _ _
  | number n => cases n <;> exact List.cons_ne_nil _ _
  | array items ih =>
      cases items with
      | nil => exact List.cons_ne_nil _ _
      | cons v vs => exact List.append_ne_nil_of_left_ne_nil (ih v List.mem_cons_self) _
  | _ => exact List.cons_ne_nil _ _

/-! ### One join -/

/-- **Joins of joins are joins**, as long as none of them joins nothing. -/
theorem join_map_join {parts : List (List String)} (h : ∀ part ∈ parts, part ≠ []) :
    join (parts.map join) = join parts.flatten := by
  induction parts with
  | nil => rfl
  | cons part parts ih =>
      obtain ⟨hpart, hparts⟩ := List.forall_mem_cons.mp h
      rw [List.map_cons, List.flatten_cons]
      cases parts with
      | nil =>
          rw [List.map_nil, List.flatten_nil, List.append_nil]
          exact String.intercalate_singleton
      | cons next parts =>
          -- Something follows, so the separator stands in between on both sides.
          have hmap : (next :: parts).map join ≠ [] := List.cons_ne_nil _ _
          have hrest : (next :: parts).flatten ≠ [] :=
            List.append_ne_nil_of_left_ne_nil (hparts next List.mem_cons_self) _
          show separator.intercalate (join part :: _) = separator.intercalate (part ++ _)
          rw [String.intercalate_cons_of_ne_nil hmap,
            String.intercalate_append_of_ne_nil hpart hrest]
          exact congrArg (join part ++ separator ++ ·) (ih hparts)

theorem cells_eq_map (items : List Value) : cells items = items.map cell := by
  induction items with
  | nil => rfl
  | cons v vs ih => rw [cells, ih, List.map_cons]

/-- **A cell is one join over all leaves.** -/
theorem cell_eq_join_leaves (v : Value) : cell v = join (leaves v) := by
  have hleaf {text : String} : text = join [text] := String.intercalate_singleton.symm
  induction v with
  | null => exact hleaf
  | boolean b => cases b <;> exact hleaf
  | number n => cases n <;> exact hleaf
  | string s => exact hleaf
  | array items ih =>
      cases items with
      | nil => exact hleaf
      | cons v vs =>
          have hcells : (v :: vs).map cell = ((v :: vs).map leaves).map join := by
            rw [List.map_map]
            exact List.map_congr_left ih
          have hparts : ∀ part ∈ (v :: vs).map leaves, part ≠ [] := by
            intro part hpart
            obtain ⟨w, -, rfl⟩ := List.mem_map.mp hpart
            exact leaves_ne_nil w
          rw [cell, cells_eq_map, hcells, join_map_join hparts, leaves_array (List.cons_ne_nil _ _),
            leavesOf_eq_flatMap, List.flatMap_def]
  | object members => exact hleaf

/-! ### Grouping -/

/-- Elements, and the same elements with some neighbours put into lists, at any depth. -/
inductive Grouped : List Value → List Value → Prop
  | nil : Grouped [] []
  /-- An element stays as it is. -/
  | keep (v : Value) {items groups : List Value} (hrest : Grouped items groups) :
      Grouped (v :: items) (v :: groups)
  /-- The elements of a list are grouped. -/
  | inside {items groups inner inner' : List Value} (hinner : Grouped inner inner')
      (hrest : Grouped items groups) : Grouped (.array inner :: items) (.array inner' :: groups)
  /-- The first elements, at least one, are put into a list and grouped there. -/
  | group {items groups first inner : List Value} (hfirst : first ≠ [])
      (hinner : Grouped first inner) (hrest : Grouped items groups) :
      Grouped (first ++ items) (.array inner :: groups)

/-- Grouping makes no list empty. -/
theorem Grouped.eq_nil_iff (h : Grouped items groups) : groups = [] ↔ items = [] := by
  cases h with
  | nil => exact Iff.rfl
  | keep v hrest => exact iff_of_false (List.cons_ne_nil _ _) (List.cons_ne_nil _ _)
  | inside hinner hrest => exact iff_of_false (List.cons_ne_nil _ _) (List.cons_ne_nil _ _)
  | group hfirst hinner hrest =>
      exact iff_of_false (List.cons_ne_nil _ _) (List.append_ne_nil_of_left_ne_nil hfirst _)

/-- **Grouping keeps the leaves.** -/
theorem Grouped.leavesOf_eq (h : Grouped items groups) : leavesOf groups = leavesOf items := by
  induction h with
  | nil => rfl
  | keep v hrest ih => rw [leavesOf, leavesOf, ih]
  | @inside items groups inner inner' hinner hrest ihinner ih =>
      have hlist : leaves (.array inner') = leaves (.array inner) := by
        by_cases hempty : inner = []
        · rw [hempty, hinner.eq_nil_iff.mpr hempty]
        · rw [leaves_array hempty, leaves_array (mt hinner.eq_nil_iff.mp hempty), ihinner]
      rw [leavesOf, leavesOf, hlist, ih]
  | group hfirst hinner hrest ihinner ih =>
      rw [leavesOf, leaves_array (mt hinner.eq_nil_iff.mp hfirst), ihinner, ih]
      simp only [leavesOf_eq_flatMap, List.flatMap_append]

theorem Grouped.cell_eq (h : Grouped items groups) :
    cell (.array groups) = cell (.array items) := by
  rw [cell_eq_join_leaves, cell_eq_join_leaves]
  by_cases hempty : items = []
  · rw [hempty, h.eq_nil_iff.mpr hempty]
  · rw [leaves_array hempty, leaves_array (mt h.eq_nil_iff.mp hempty), h.leavesOf_eq]

/-- What is left of a value in its cell. -/
structure IsFlattened (v : Value) : Prop where
  /-- The cell is the texts of the leaves with a separator between them. -/
  cell_eq : cell v = "; ".intercalate (leaves v)
  /-- The leaves of a list that is not empty are those of its elements, in order. -/
  leaves_eq : ∀ items, v = .array items → items ≠ [] → leaves v = items.flatMap leaves
  /-- An object is one leaf, a JSON text. If all numbers are whole and members stand as they do in
  an object that was read, the leaf is read as this object and as nothing else. It is not read if it
  is nested too deeply, or if an announcing key is the first one of an object. -/
  object : ∀ members, v = .object members → ∃ leaf, leaves v = [leaf] ∧
    (v.IsWhole → v.IsTidy → ∀ w, Value.ofText? leaf = some w ↔
      w = v ∧ v.nesting ≤ Json.maxDepth ∧ v.IsSilent)
  /-- A finite binary64 number is one leaf, a numeral for the shortest decimal that rounds to it. -/
  double : ∀ bits, v = .number (.double bits) → bits.toNat / 2 ^ 52 % 2 ^ 11 ≠ 2 ^ 11 - 1 →
    ∃ leaf, leaves v = [leaf] ∧ Decimal.IsText bits leaf
  /-- Grouping the elements of a list does not change the cell. -/
  grouped : ∀ items groups, v = .array items → Grouped items groups →
    cell (.array groups) = cell v
  /-- Nor does it change the cell of a stored answer that is read as the list. -/
  stored : ∀ items groups raw raw', v = .array items → Grouped items groups →
    Value.ofText? raw = some v → Value.ofText? raw' = some (.array groups) →
      text (some raw') = text (some raw)

/-- **A cell holds the leaves of its value, and no trace of the lists around them.** -/
theorem isFlattened_cell (v : Value) : IsFlattened v where
  cell_eq := cell_eq_join_leaves v
  leaves_eq := by
    rintro items rfl hne
    rw [leaves_array hne, leavesOf_eq_flatMap]
  object := by
    rintro members rfl
    exact ⟨_, rfl, fun hwhole htidy => Value.ofText?_text hwhole htidy⟩
  double := by
    rintro bits rfl hfinite
    exact ⟨_, rfl, Decimal.isText_text hfinite⟩
  grouped := by
    rintro items groups rfl h
    exact h.cell_eq
  stored := by
    rintro items groups raw raw' rfl h hraw hraw'
    rw [text, text, hraw, hraw']
    exact h.cell_eq

/-- Two neighbours are put into a list, and one of them into a list of its own. -/
example (u v w : Value) : Grouped [u, v, w] [.array [.array [u], v], w] :=
  .group (List.cons_ne_nil u [v])
    (.group (List.cons_ne_nil u []) (.keep u .nil) (.keep v .nil)) (.keep w .nil)

end ResponseExport.Survey.Answer
