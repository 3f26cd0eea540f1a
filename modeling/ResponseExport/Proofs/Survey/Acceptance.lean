import ResponseExport.Proofs.Json.TextArrays
import ResponseExport.Proofs.Survey.Tokens
import ResponseExport.Proofs.Text.Canonical

/-!
# `ResponseExport.Proofs.Survey.Acceptance`: which tokens are accepted

A token is a document in base64, with blanks around it. Each of the three layers has a
description of its own that mentions no reader: the blanks (`Text.Surrounds`), the letters
and their bits (`Text.Base64.Writes`), and the array of texts (`Json.Strings.IsDocument`).
`IsToken` puts them on top of each other, and `tokens_accepted` says that this is what
reading a token accepts.

A cursor has many documents, and so many tokens. But a document has one base64 text, so
that there is no second way to write the same bytes.
-/

set_option autoImplicit false

namespace ResponseExport.Survey.Cursor

open ResponseExport.Text (bytes trim)
open ResponseExport.Text.Base64 (Writes decode encode)

/-- Is it a token of this cursor? Between its blanks it is the base64 text of a document with the
texts of the cursor. -/
def IsToken (token : String) (c : Cursor) : Prop :=
  ∃ document symbols, Json.Strings.IsDocument c.texts document ∧
    Writes symbols (bytes (String.ofList document)) ∧ Text.Surrounds token symbols

/-- Four texts are those of a cursor. -/
theorem texts_ofTexts {ts : List String} (h : ts.length = 4) : (ofTexts ts).texts = ts := by
  match ts with
  | [a, b, c, d] => rfl

theorem bytes_ne_nil {ts : List String} {document : List Char}
    (h : Json.Strings.IsDocument ts document) : bytes (String.ofList document) ≠ [] := by
  obtain ⟨before, elements, behind, -, -, -, rfl⟩ := h
  rw [Json.Strings.bytes_middle before (by decide)]
  simp

/-- Trimming leaves a base64 text of something, and nothing else, of what surrounds it. -/
theorem trim_eq_of_surrounds {token : String} {symbols : List Char} {bs : List UInt8}
    (hbs : bs ≠ []) (hsymbols : Writes symbols bs) (h : Text.Surrounds token symbols) :
    (trim token).toList = symbols := by
  obtain rfl := Text.Base64.writes_iff.mp hsymbols
  exact (Text.trim_eq_iff (Text.Base64.encode_ne_nil hbs)
    (Text.Base64.forall_mem_encode isBlank_symbol bs)).mpr h

/-- A token is read layer by layer. -/
theorem ofToken_eq_ok_iff {token : String} {c : Cursor} :
    ofToken token = .ok c ↔
      ∃ bs, decode (bytes (trim token)) = .ok bs ∧ Json.Strings.read 4 bs = .ok c.texts := by
  constructor
  · intro h
    rw [ofToken] at h
    split at h
    · cases h
    · next bs hdecode =>
        split at h
        · cases h
        · next ts hread =>
            obtain rfl := Except.ok.inj h
            have hlength := (Json.Strings.read_eq_ok_iff.mp hread).1
            exact ⟨bs, hdecode, by rw [hread, texts_ofTexts hlength]⟩
  · rintro ⟨bs, hdecode, hread⟩
    rw [ofToken, hdecode]
    dsimp only
    rw [hread]
    dsimp only
    rw [ofTexts_texts]

theorem ofToken_eq_ok_iff_isToken {token : String} {c : Cursor} :
    ofToken token = .ok c ↔ IsToken token c := by
  rw [ofToken_eq_ok_iff]
  constructor
  · rintro ⟨bs, hdecode, hread⟩
    obtain ⟨-, document, hdocument, rfl⟩ := Json.Strings.read_eq_ok_iff.mp hread
    exact ⟨document, (trim token).toList, hdocument, Text.Base64.decode_eq_ok_iff.mp hdecode,
      Text.surrounds_trim token⟩
  · rintro ⟨document, symbols, hdocument, hsymbols, hsurrounds⟩
    refine ⟨bytes (String.ofList document), Text.Base64.decode_eq_ok_iff.mpr ?_,
      Json.Strings.read_eq_ok_iff.mpr ⟨rfl, document, hdocument, rfl⟩⟩
    rw [trim_eq_of_surrounds (bytes_ne_nil hdocument) hsymbols hsurrounds]
    exact hsymbols

/-- Whatever is wrong with a token, it is said of the field that the token was given in. -/
theorem eq_format_of_error {token : String} {e : FieldError} (h : ofToken token = .error e) :
    ∃ reason, e = .format "after" ("not a valid token: " ++ reason) := by
  rw [ofToken] at h
  split at h
  · next fault _ => exact ⟨fault.message, (Except.error.inj h).symm⟩
  · next bs _ =>
      split at h
      · next failure _ => exact ⟨failure.message bs, (Except.error.inj h).symm⟩
      · cases h

/-- A token is accepted exactly if it is a token of the cursor that it is read as; any other text is
a format error of `after`. So what is accepted can be written anew and is read as the same cursor,
and two tokens that carry the same bytes differ in nothing but the blanks around them. -/
theorem tokens_accepted (token : String) :
    (∀ c, ofToken token = .ok c ↔ IsToken token c) ∧
    ((∀ c, ¬ IsToken token c) →
      ∃ reason, ofToken token = .error (.format "after" ("not a valid token: " ++ reason))) ∧
    (∀ c, ofToken token = .ok c → ofToken c.token = .ok c) ∧
    (∀ other bs, decode (bytes (trim token)) = .ok bs → decode (bytes (trim other)) = .ok bs →
      trim token = trim other) := by
  refine ⟨fun c => ofToken_eq_ok_iff_isToken, ?_, fun c _ => ofToken_token c, ?_⟩
  · intro hnone
    cases hread : ofToken token with
    | ok c => exact absurd (ofToken_eq_ok_iff_isToken.mp hread) (hnone c)
    | error e =>
        obtain ⟨reason, rfl⟩ := eq_format_of_error hread
        exact ⟨reason, rfl⟩
  · intro other bs htoken hother
    have hletters := (Text.Base64.decode_eq_ok_iff.mp htoken).unique
      (Text.Base64.decode_eq_ok_iff.mp hother)
    exact String.toList_inj.mp hletters

/-- A token that the service would not write: there are blanks around it and in its document, and one
text is spelled with a surrogate pair. -/
example : ofToken "\u2003WyJhIiAsIlx1RDgzZFx1REUwMCIsIiIsIlxuIl0\n"
    = .ok ⟨"a", "😀", "", "\n"⟩ := by cbv

/-- The bits behind the only byte are not zero. -/
example : ofToken "\u2003AB"
    = .error (.format "after" "not a valid token: Invalid last symbol 66, offset 1.") := rfl

end ResponseExport.Survey.Cursor
