import Mathlib.Data.List.Basic
import ResponseExport.Json.Strings
import ResponseExport.Proofs.Json.Literals

/-!
# `ResponseExport.Proofs.Json.Arrays`: arrays of texts read back

An array is written without gaps: its texts with commas between them. Reading goes from one text to
the next; what it has left behind each is the part of the array that is not read yet.
-/

set_option autoImplicit false

namespace ResponseExport.Json.Strings

open ResponseExport.Text (bytes)
open Literal (content write)

/-- An array of texts. -/
def written (ts : List String) : List Char := '[' :: ([','].intercalate (ts.map write) ++ [']'])

/-- The bytes of an array behind one of its texts, if `ts` are still to come. -/
def behind (ts : List String) : List UInt8 :=
  ts.flatMap (fun t => 44 :: 34 :: (content t ++ [34])) ++ [93]

theorem behind_cons (t : String) (ts : List String) :
    behind (t :: ts) = 44 :: 34 :: (content t ++ 34 :: behind ts) := by
  rw [behind, List.flatMap_cons, List.append_assoc, ← behind, List.cons_append, List.cons_append,
    List.append_assoc, List.singleton_append]

theorem bytes_intercalate (t : String) (ts : List String) :
    bytes (String.ofList ([','].intercalate ((t :: ts).map write) ++ [']']))
      = 34 :: (content t ++ 34 :: behind ts) := by
  have hcomma : String.utf8EncodeChar ',' = [44] := rfl
  have hbracket : bytes (String.ofList [']']) = [93] := rfl
  induction ts generalizing t with
  | nil =>
      rw [List.map_singleton, List.intercalate_singleton, String.ofList_append, Text.bytes_append,
        Literal.bytes_write, hbracket, List.cons_append, List.append_assoc]
      rfl
  | cons t' ts ih =>
      rw [List.map_cons, List.map_cons, List.intercalate_cons_cons, ← List.map_cons,
        List.append_assoc, List.append_assoc, String.ofList_append, Text.bytes_append,
        String.ofList_append, Text.bytes_append, ih t', Literal.bytes_write, Text.bytes_ofList,
        List.flatMap_singleton, hcomma, behind_cons, List.cons_append, List.append_assoc]
      rfl

/-! ### Reading from text to text -/

theorem skipGaps_of_head {b : UInt8} (h : isGap b = false) (bs : List UInt8) :
    skipGaps (b :: bs) = b :: bs :=
  List.dropWhile_cons_of_neg (by rw [h]; exact Bool.false_ne_true)

theorem readText_content (t : String) (rest : List UInt8) :
    readText (34 :: (content t ++ 34 :: rest)) = .ok (t, rest) := by
  rw [readText, skipGaps_of_head rfl]
  exact Literal.read_content t rest

theorem toNext_first (rest : List UInt8) : toNext true (34 :: rest) = .ok (some (34 :: rest)) := rfl

theorem toNext_comma (rest : List UInt8) :
    toNext false (44 :: 34 :: rest) = .ok (some (34 :: rest)) := rfl

/-- The texts behind the first are read up to the closing bracket. -/
theorem readTexts_behind {total : Nat} (ts : List String) (h : ts.length < total) :
    readTexts total ts.length (behind ts) = .ok (ts, [93]) := by
  induction ts with
  | nil => rfl
  | cons t ts ih =>
      have hfirst : (ts.length + 1 == total) = false :=
        beq_eq_false_iff_ne.mpr (Nat.ne_of_lt h)
      rw [List.length_cons, readTexts, hfirst, behind_cons, toNext_comma]
      dsimp only
      rw [readText_content]
      dsimp only
      rw [ih (Nat.lt_of_succ_lt h)]
      rfl

/-- An array ends where its texts have been read and nothing but the bracket is left. -/
theorem read_of_readTexts {total : Nat} {rest : List UInt8} {ts : List String}
    (h : readTexts total total rest = .ok (ts, [93])) : read total (91 :: rest) = .ok ts := by
  rw [read, skipGaps_of_head rfl]
  split
  · contradiction
  · next heq =>
      cases heq
      rw [h]
      rfl
  · next hother => exact absurd rfl (hother rest)

/-- The array of any texts is read back. -/
theorem read_written (ts : List String) :
    read ts.length (bytes (String.ofList (written ts))) = .ok ts := by
  cases ts with
  | nil => rfl
  | cons t ts =>
      have hbytes : bytes (String.ofList (written (t :: ts)))
          = 91 :: 34 :: (content t ++ 34 :: behind ts) := by
        rw [written, ← List.singleton_append, String.ofList_append, Text.bytes_append,
          bytes_intercalate]
        rfl
      have htexts : readTexts (ts.length + 1) (ts.length + 1)
          (34 :: (content t ++ 34 :: behind ts)) = .ok (t :: ts, [93]) := by
        rw [readTexts, beq_self_eq_true, toNext_first]
        dsimp only
        rw [readText_content]
        dsimp only
        rw [readTexts_behind ts (Nat.lt_succ_self _)]
        rfl
      rw [hbytes, List.length_cons]
      exact read_of_readTexts htexts

end ResponseExport.Json.Strings
