import ResponseExport.Proofs.Text.Ascii

/-!
# `ResponseExport.Proofs.Text.Order`: texts are totally ordered

A text is its bytes, so that texts are in the order of their bytes, and only equal texts compare as
equal. Comparisons that go on with a second text where the first ones agree are such orders too.
Texts that begin with parts of one length are compared part by part.
-/

set_option autoImplicit false

namespace ResponseExport.Text

instance : Std.TransCmp order where
  eq_swap {a b} := (Std.OrientedCmp.eq_swap : compare (bytes a) (bytes b) = _)
  isLE_trans {a _ c} hab hbc :=
    (Std.TransCmp.isLE_trans hab hbc : (compare (bytes a) (bytes c)).isLE = true)

instance : Std.LawfulEqCmp order where
  compare_self {a} := Std.ReflOrd.compare_self (a := bytes a)
  eq_of_compare h := bytes_injective (Std.LawfulEqOrd.eq_of_compare h)

theorem order_self (s : String) : order s s = .eq := Std.ReflCmp.compare_self

theorem order_eq_eq {s t : String} : order s t = .eq ↔ s = t :=
  ⟨Std.LawfulEqCmp.eq_of_compare, fun h => h ▸ order_self s⟩

theorem order_swap (s t : String) : order s t = (order t s).swap := Std.OrientedCmp.eq_swap

/-- Lists that begin with parts of one length are compared by these first. -/
theorem compareLex_append {α : Type} {cmp : α → α → Ordering} {xs ys : List α}
    (h : xs.length = ys.length) (as bs : List α) :
    List.compareLex cmp (xs ++ as) (ys ++ bs)
      = (List.compareLex cmp xs ys).then (List.compareLex cmp as bs) := by
  induction xs generalizing ys with
  | nil =>
      rw [List.eq_nil_of_length_eq_zero h.symm]
      rfl
  | cons x xs ih =>
      cases ys with
      | nil => cases h
      | cons y ys =>
          rw [List.cons_append, List.cons_append, List.compareLex_cons_cons,
            List.compareLex_cons_cons, ih (Nat.succ.inj h), Ordering.then_assoc]

/-- Texts that begin with as many characters, all ASCII, are compared by these first. -/
theorem order_append {xs ys : List Char} (hx : ∀ c ∈ xs, c.toNat < 128)
    (hy : ∀ c ∈ ys, c.toNat < 128) (h : xs.length = ys.length) (cs ds : List Char) :
    order (String.ofList (xs ++ cs)) (String.ofList (ys ++ ds))
      = (order (String.ofList xs) (String.ofList ys)).then
        (order (String.ofList cs) (String.ofList ds)) := by
  have hbytes : (bytes (String.ofList xs)).length = (bytes (String.ofList ys)).length := by
    rw [bytes_ofList_ascii hx, bytes_ofList_ascii hy, List.length_map, List.length_map, h]
  rw [String.ofList_append, String.ofList_append, order, bytes_append, bytes_append]
  exact compareLex_append hbytes _ _

end ResponseExport.Text
