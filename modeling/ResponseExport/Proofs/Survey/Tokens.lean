import ResponseExport.Http.Query
import ResponseExport.Listing
import ResponseExport.Proofs.Http.Targets
import ResponseExport.Proofs.Json.Arrays
import ResponseExport.Proofs.Text.Parameters
import ResponseExport.Proofs.Text.Sextets
import ResponseExport.Proofs.Text.Trim

/-!
# `ResponseExport.Proofs.Survey.Tokens`: cursors read back from their tokens

A token is made in two layers, an array in base64, and is read layer by layer. Its 64 characters
mean nothing to a query string, so that a client may put a token into one as it is.
-/

set_option autoImplicit false

namespace ResponseExport.Survey.Cursor

open ResponseExport.Text (bytes)

theorem ofTexts_texts (c : Cursor) : ofTexts c.texts = c := rfl

theorem read_document (c : Cursor) :
    Json.Strings.read 4 (bytes (String.ofList c.document)) = .ok c.texts :=
  Json.Strings.read_written c.texts

theorem bytes_document_ne_nil (c : Cursor) : bytes (String.ofList c.document) ≠ [] := by
  intro hnil
  have hread := read_document c
  rw [hnil] at hread
  cases hread

/-- What holds of the 64 symbols holds of the characters of a token. -/
theorem forall_mem_token {P : Char → Prop} (h : ∀ n < 64, P (Text.Base64.symbol n)) (c : Cursor) :
    ∀ x ∈ c.token.toList, P x :=
  Text.Base64.forall_mem_encode h _

theorem token_ne_nil (c : Cursor) : c.token.toList ≠ [] :=
  Text.Base64.encode_ne_nil (bytes_document_ne_nil c)

theorem isBlank_symbol : ∀ n < 64, Text.isBlank (Text.Base64.symbol n) = false := by decide

theorem isVerbatim_symbol : ∀ n < 64, Text.IsVerbatim (Text.Base64.symbol n) := by decide

theorem trim_token (c : Cursor) {before behind : String}
    (hbefore : ∀ x ∈ before.toList, Text.isBlank x = true)
    (hbehind : ∀ x ∈ behind.toList, Text.isBlank x = true) :
    Text.trim (before ++ c.token ++ behind) = c.token := by
  rw [Text.trim, String.toList_append, String.toList_append,
    Text.trimChars_surrounded (token_ne_nil c) (forall_mem_token isBlank_symbol c) hbefore hbehind,
    String.ofList_toList]

/-- A token is read back, whatever blanks are around it. -/
theorem ofToken_surrounded (c : Cursor) {before behind : String}
    (hbefore : ∀ x ∈ before.toList, Text.isBlank x = true)
    (hbehind : ∀ x ∈ behind.toList, Text.isBlank x = true) :
    ofToken (before ++ c.token ++ behind) = .ok c := by
  rw [ofToken, trim_token c hbefore hbehind, token, Text.Base64.decode_encode]
  dsimp only
  rw [read_document]
  dsimp only
  rw [ofTexts_texts]

@[simp] theorem ofToken_token (c : Cursor) : ofToken c.token = .ok c := by
  have hnone : ∀ x ∈ "".toList, Text.isBlank x = true := List.all_eq_true.mp (by decide)
  have h := ofToken_surrounded c hnone hnone
  rwa [String.empty_append, String.append_empty] at h

theorem token_injective {c d : Cursor} (h : d.token = c.token) : d = c := by
  have hread := ofToken_token d
  rw [h, ofToken_token] at hread
  exact (Except.ok.inj hread).symm

/-- A listing takes a token for the place that it names. -/
theorem start_token (c : Cursor) : Listing.start (some c.token) = .ok (some c) := by
  have hfull : c.token.isEmpty = false := by
    rw [← Bool.not_eq_true, String.isEmpty_iff]
    exact fun hempty => token_ne_nil c (by rw [hempty]; rfl)
  rw [Listing.start, hfull, ofToken_token]
  rfl

theorem queryPairs_token (c : Cursor) :
    Text.queryPairs (bytes ("after=" ++ c.token)) = [("after", c.token)] := by
  have hname : ∀ x ∈ "after".toList, Text.IsVerbatim x := by
    simp only [String.reduceToList, List.forall_mem_cons, List.not_mem_nil, false_implies,
      implies_true]
    decide
  have htext : "after=" = "after" ++ "=" := rfl
  rw [htext]
  exact Text.queryPairs_pair hname (forall_mem_token isVerbatim_symbol c)

theorem read_token (c : Cursor) :
    Http.Query.read true (Http.Target.ofText ("/api/v1/responses?after=" ++ c.token))
      = .ok { after := some c.token } := by
  have htext : "/api/v1/responses?after=" ++ c.token
      = "/api/v1/responses" ++ "?" ++ ("after=" ++ c.token) := by
    rw [← String.append_assoc]
    rfl
  have hfragment : '#' ∉ ("after=" ++ c.token).toList := by
    rw [String.toList_append, List.mem_append, not_or]
    have hsymbol : ∀ n < 64, Text.Base64.symbol n ≠ '#' := by decide
    exact ⟨by decide, fun hmem => forall_mem_token (P := (· ≠ '#')) hsymbol c '#' hmem rfl⟩
  rw [htext, Http.Target.ofText_append (by decide) (by decide) (by decide) hfragment,
    Http.Query.read]
  dsimp only
  rw [Option.getD_some, queryPairs_token]
  rfl

/-- Tokens stand for their cursors: blanks around a token do not count, different cursors have
different tokens, a listing never takes one for none, and it comes through a query string as it is,
whatever other parameters stand there. -/
theorem token_stands_for_cursor (c : Cursor) :
    (∀ before behind : String, (∀ x ∈ before.toList, Text.isBlank x = true) →
      (∀ x ∈ behind.toList, Text.isBlank x = true) →
      ofToken (before ++ c.token ++ behind) = .ok c) ∧
    (∀ d : Cursor, d.token = c.token → d = c) ∧
    c.token ≠ "" ∧
    (∀ x ∈ c.token.toList, ('A' ≤ x ∧ x ≤ 'Z') ∨ ('a' ≤ x ∧ x ≤ 'z') ∨ ('0' ≤ x ∧ x ≤ '9') ∨
      x = '-' ∨ x = '_') ∧
    Listing.start (some c.token) = .ok (some c) ∧
    (∀ before behind : List String,
      Text.queryPairs (bytes ("&".intercalate (before ++ ("after=" ++ c.token) :: behind)))
        = Text.queryPairs (bytes ("&".intercalate before)) ++
          ("after", c.token) :: Text.queryPairs (bytes ("&".intercalate behind))) ∧
    Http.Query.read true (Http.Target.ofText ("/api/v1/responses?after=" ++ c.token))
      = .ok { after := some c.token } := by
  refine ⟨fun _ _ hbefore hbehind => ofToken_surrounded c hbefore hbehind,
    fun d h => token_injective h, ?_, forall_mem_token (by decide) c, start_token c, ?_,
    read_token c⟩
  · exact fun hempty => token_ne_nil c (by rw [hempty]; rfl)
  · intro before behind
    rw [Text.queryPairs_intercalate, Text.queryPairs_intercalate, Text.queryPairs_intercalate,
      List.flatMap_append, List.flatMap_cons, queryPairs_token, List.singleton_append]

/-- Texts with everything that is written with an escape, and blanks of all kinds. -/
theorem escaped_cursor_stands_behind_token :
    let c : Cursor := ⟨"a\"b\\c,", "\x00\n\x1f", "", "\u2028é"⟩
    c.token = "WyJhXCJiXFxjLCIsIlx1MDAwMFxuXHUwMDFmIiwiIiwi4oCow6kiXQ" ∧
    ofToken ("\u2003 \t" ++ c.token ++ "\n\u00a0") = .ok c ∧
    (∀ d : Cursor, d.token = c.token → d = c) := by
  intro c
  have h := token_stands_for_cursor c
  have hbefore : ∀ x ∈ "\u2003 \t".toList, Text.isBlank x = true := List.all_eq_true.mp (by decide)
  have hbehind : ∀ x ∈ "\n\u00a0".toList, Text.isBlank x = true := List.all_eq_true.mp (by decide)
  exact ⟨by decide +kernel, h.1 _ _ hbefore hbehind, h.2.1⟩

end ResponseExport.Survey.Cursor
