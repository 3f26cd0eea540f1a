import Mathlib.Data.List.Perm.Basic
import Mathlib.Data.List.Pairwise

/-!
# `ResponseExport.Proofs.Store.Sorting`: what a sorted table depends on

Tables are sorted for an answer, and come in any order of insertion. Sorting is stable: rows that
compare as equal, *ties*, stay in their order. So the sorted rows are known from the rows of each
class of ties (`sorted_eq_of_ties`), and some of the rows come in the order in which they come among
all of them (`filter_sorted`). If there are no ties, it does not matter in which order the
rows were (`sorted_eq_of_perm`). The same holds of the least row (`least_eq_of_perm`).
-/

set_option autoImplicit false

namespace ResponseExport.Store

/-- Rows that are compared by something that they hold. -/
theorem transCmp_on {α β : Type} (cmp : β → β → Ordering) [Std.TransCmp cmp] (f : α → β) :
    Std.TransCmp fun a b => cmp (f a) (f b) where
  eq_swap := Std.OrientedCmp.eq_swap
  isLE_trans := Std.TransCmp.isLE_trans

section Sorted

variable {α : Type} (cmp : α → α → Ordering)

/-- Rows in order. -/
def sorted (rows : List α) : List α := rows.mergeSort fun a b => (cmp a b).isLE

/-- Do two rows compare as equal? -/
def isTie (a b : α) : Bool := cmp a b == .eq

theorem sorted_perm (rows : List α) : (sorted cmp rows).Perm rows := List.mergeSort_perm _ _

variable {cmp} [Std.TransCmp cmp]

theorem isLE_self (a : α) : (cmp a a).isLE = true := by
  have hself : cmp a a = .eq := Std.ReflCmp.compare_self
  rw [hself]
  rfl

theorem isLE_total (a b : α) : ((cmp a b).isLE || (cmp b a).isLE) = true := by
  have hswap : cmp b a = (cmp a b).swap := Std.OrientedCmp.eq_swap
  rw [hswap]
  cases cmp a b <;> rfl

theorem pairwise_sorted (rows : List α) :
    (sorted cmp rows).Pairwise fun a b => (cmp a b).isLE = true :=
  List.pairwise_mergeSort (fun _ _ _ => Std.TransCmp.isLE_trans) isLE_total rows

theorem isTie_iff {a b : α} :
    isTie cmp a b = true ↔ (cmp a b).isLE = true ∧ (cmp b a).isLE = true := by
  have hswap : cmp b a = (cmp a b).swap := Std.OrientedCmp.eq_swap
  rw [isTie, beq_iff_eq, hswap]
  cases cmp a b <;> decide

/-! ### Rows without ties -/

/-- If only equal rows compare as equal, the order before sorting does not matter. -/
theorem sorted_eq_of_perm {rows rows' : List α} (hperm : rows.Perm rows')
    (hties : ∀ a ∈ rows, ∀ b ∈ rows, cmp a b = .eq → a = b) :
    sorted cmp rows = sorted cmp rows' := by
  refine List.Perm.eq_of_pairwise ?_ (pairwise_sorted rows) (pairwise_sorted rows')
    ((sorted_perm cmp rows).trans (hperm.trans (sorted_perm cmp rows').symm))
  intro a b ha hb hab hba
  exact hties a ((sorted_perm cmp rows).mem_iff.mp ha) b
    (hperm.mem_iff.mpr ((sorted_perm cmp rows').mem_iff.mp hb))
    (Std.OrientedCmp.isLE_antisymm hab hba)

/-- Lists are equal if what they show is, and tells apart what is in them. -/
theorem eq_of_map_eq {β : Type} {f : α → β} {rows rows' : List α}
    (hinj : ∀ a ∈ rows, ∀ b ∈ rows', f a = f b → a = b) (h : rows.map f = rows'.map f) :
    rows = rows' := by
  have hlength : rows.length = rows'.length := by
    simpa using congrArg List.length h
  refine List.ext_getElem hlength fun i hi hi' => ?_
  refine hinj _ (List.getElem_mem hi) _ (List.getElem_mem hi') ?_
  have hget := List.getElem_of_eq h (by rwa [List.length_map])
  rwa [List.getElem_map, List.getElem_map] at hget

/-! ### Rows with ties -/

/-- Ties keep their order when rows are sorted. -/
theorem filter_isTie_sorted (a : α) (rows : List α) :
    (sorted cmp rows).filter (isTie cmp a) = rows.filter (isTie cmp a) := by
  have hpairwise : (rows.filter (isTie cmp a)).Pairwise fun b c => (cmp b c).isLE = true := by
    refine List.pairwise_of_forall_mem_list fun b hb c hc => ?_
    have hb := isTie_iff.mp (List.mem_filter.mp hb).2
    have hc := isTie_iff.mp (List.mem_filter.mp hc).2
    exact Std.TransCmp.isLE_trans hb.2 hc.1
  have hsublist : (rows.filter (isTie cmp a)).Sublist (sorted cmp rows) :=
    List.sublist_mergeSort (fun _ _ _ => Std.TransCmp.isLE_trans) isLE_total hpairwise
      List.filter_sublist
  have hfilter := hsublist.filter (isTie cmp a)
  rw [List.filter_filter, show (fun b => isTie cmp a b && isTie cmp a b) = isTie cmp a from
    funext fun b => Bool.and_self _] at hfilter
  exact (hfilter.eq_of_length (((sorted_perm cmp rows).filter _).length_eq.symm)).symm

/-- Two rows in order, with the same classes of ties, are the same. -/
theorem eq_of_pairwise_of_ties {rows rows' : List α}
    (h : rows.Pairwise fun a b => (cmp a b).isLE = true)
    (h' : rows'.Pairwise fun a b => (cmp a b).isLE = true) (hperm : rows.Perm rows')
    (hties : ∀ a, rows.filter (isTie cmp a) = rows'.filter (isTie cmp a)) : rows = rows' := by
  induction rows generalizing rows' with
  | nil => exact (List.nil_perm.mp hperm).symm
  | cons a rows ih =>
      cases rows' with
      | nil => exact absurd (List.perm_nil.mp hperm) (List.cons_ne_nil a rows)
      | cons b rows' =>
          obtain ⟨hfirst, hrest⟩ := List.pairwise_cons.mp h
          obtain ⟨hfirst', hrest'⟩ := List.pairwise_cons.mp h'
          have hself : isTie cmp a a = true := beq_iff_eq.mpr Std.ReflCmp.compare_self
          -- Each of the two first rows stands in the other list, so they are a tie.
          have htie : isTie cmp a b = true := by
            rcases List.mem_cons.mp (hperm.mem_iff.mpr List.mem_cons_self) with rfl | hb
            · exact hself
            · rcases List.mem_cons.mp (hperm.mem_iff.mp List.mem_cons_self) with rfl | ha
              · exact hself
              · exact isTie_iff.mpr ⟨hfirst b hb, hfirst' a ha⟩
          have hclass := hties a
          rw [List.filter_cons_of_pos hself, List.filter_cons_of_pos htie] at hclass
          obtain rfl := (List.cons.inj hclass).1
          refine congrArg (List.cons a) (ih hrest hrest' hperm.cons_inv fun c => ?_)
          have hclass := hties c
          rw [List.filter_cons, List.filter_cons] at hclass
          split at hclass
          · exact (List.cons.inj hclass).2
          · exact hclass

/-- Sorted rows are known from the rows of each class of ties, in their order. -/
theorem sorted_eq_of_ties {rows rows' : List α} (hperm : rows.Perm rows')
    (hties : ∀ a, rows.filter (isTie cmp a) = rows'.filter (isTie cmp a)) :
    sorted cmp rows = sorted cmp rows' := by
  refine eq_of_pairwise_of_ties (pairwise_sorted rows) (pairwise_sorted rows')
    ((sorted_perm cmp rows).trans (hperm.trans (sorted_perm cmp rows').symm)) fun a => ?_
  rw [filter_isTie_sorted, filter_isTie_sorted, hties]

/-- Rows can be picked before or after sorting. -/
theorem filter_sorted (p : α → Bool) (rows : List α) :
    (sorted cmp rows).filter p = sorted cmp (rows.filter p) := by
  refine eq_of_pairwise_of_ties ((pairwise_sorted rows).filter p) (pairwise_sorted (rows.filter p))
    (((sorted_perm cmp rows).filter p).trans (sorted_perm cmp (rows.filter p)).symm) fun a => ?_
  rw [filter_isTie_sorted, List.filter_comm, filter_isTie_sorted, List.filter_comm]

end Sorted

/-! ### The least row -/

section Least

variable {α : Type} (cmp : α → α → Ordering)

/-- The least row of a non-empty list. -/
def least (row : α) (rows : List α) : α :=
  rows.foldl (fun a b => if (cmp a b).isLE then a else b) row

theorem least_mem (row : α) (rows : List α) : least cmp row rows ∈ row :: rows := by
  induction rows generalizing row with
  | nil => exact List.mem_cons_self
  | cons b rows ih =>
      rw [least, List.foldl_cons, ← least]
      have hmem := ih (if (cmp row b).isLE then row else b)
      rcases List.mem_cons.mp hmem with heq | hmem
      · rw [heq]
        split
        · exact List.mem_cons_self
        · exact List.mem_cons_of_mem _ List.mem_cons_self
      · exact List.mem_cons_of_mem _ (List.mem_cons_of_mem _ hmem)

variable {cmp} [Std.TransCmp cmp]

theorem least_isLE (row : α) (rows : List α) :
    ∀ a ∈ row :: rows, (cmp (least cmp row rows) a).isLE = true := by
  induction rows generalizing row with
  | nil =>
      intro a ha
      obtain rfl := List.mem_singleton.mp ha
      exact isLE_self a
  | cons b rows ih =>
      rw [least, List.foldl_cons, ← least]
      have hfirst := ih (if (cmp row b).isLE then row else b)
      -- The row that the comparison chose is not behind the two that it chose from.
      have hchosen : (cmp (if (cmp row b).isLE then row else b) row).isLE = true ∧
          (cmp (if (cmp row b).isLE then row else b) b).isLE = true := by
        split
        · rename_i hle
          exact ⟨isLE_self row, hle⟩
        · rename_i hnot
          have htotal : ((cmp row b).isLE || (cmp b row).isLE) = true := isLE_total row b
          rw [Bool.eq_false_iff.mpr hnot, Bool.false_or] at htotal
          exact ⟨htotal, isLE_self b⟩
      intro a ha
      rcases List.mem_cons.mp ha with rfl | ha
      · exact Std.TransCmp.isLE_trans (hfirst _ List.mem_cons_self) hchosen.1
      · rcases List.mem_cons.mp ha with rfl | ha
        · exact Std.TransCmp.isLE_trans (hfirst _ List.mem_cons_self) hchosen.2
        · exact hfirst a (List.mem_cons_of_mem _ ha)

/-- If only equal rows compare as equal, the least row does not depend on the order. -/
theorem least_eq_of_perm {row row' : α} {rows rows' : List α}
    (hperm : (row :: rows).Perm (row' :: rows'))
    (hties : ∀ a ∈ row :: rows, ∀ b ∈ row :: rows, cmp a b = .eq → a = b) :
    least cmp row rows = least cmp row' rows' := by
  have hmem := least_mem cmp row rows
  have hmem' := hperm.mem_iff.mpr (least_mem cmp row' rows')
  exact hties _ hmem _ hmem' (Std.OrientedCmp.isLE_antisymm (least_isLE row rows _ hmem')
    (least_isLE row' rows' _ (hperm.mem_iff.mp hmem)))

end Least

end ResponseExport.Store
