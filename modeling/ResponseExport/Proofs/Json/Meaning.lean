import ResponseExport.Proofs.Json.Embedding

/-!
# `ResponseExport.Proofs.Json.Meaning`: what a document says

`Doc.Means` says what value a document has, part by part and without a reader: in which
order the members of an object stand does not matter, and of members with one key the last one
counts. A document has no two meanings (`Means.unique`), and what is read of a text is what the
document in it means (`means_of_ofText?`).
-/

set_option autoImplicit false

namespace ResponseExport.Json

/-- The document says this value, if it can be read. -/
inductive Doc.Means : Doc → Value → Prop where
  | null : Means .null .null
  | boolean (b : Bool) : Means (.boolean b) (.boolean b)
  | numeral {n : Numeral} {x : Number} (hnumber : n.number? = some x) :
      Means (.numeral n) (.number x)
  | literal (s : String) : Means (.literal (some s)) (.string s)
  /-- An array says what its elements say. -/
  | array {items : List Doc} {vs : List Value} (hlength : items.length = vs.length)
      (hitems : ∀ (i : Nat) d v, items[i]? = some d → vs[i]? = some v → Means d v) :
      Means (.array items) (.array vs)
  /-- An object that announces a text says what this text says. -/
  | embedded {members : List (Option String × Doc)} {s : String} {d : Doc} {v : Value}
      (htext : Embedded.of members = .text s) (hdoc : Doc.ofText? s = some d) (hmeans : Means d v) :
      Means (.object members) v
  /-- Under every key, any other object says what the last of its members with this key says. -/
  | object {members : List (Option String × Doc)} {ms : List (String × Value)}
      (habsent : Embedded.of members = .absent) (hascending : Ascending ms)
      (hkeys : ∀ k, (ms.lookup k).isSome = (members.reverse.lookup (some k)).isSome)
      (hvalues : ∀ k d v, members.reverse.lookup (some k) = some d → ms.lookup k = some v →
        Means d v) :
      Means (.object members) (.object ms)

variable {d : Doc} {v w : Value}

/-- A document has no two meanings. -/
theorem Doc.Means.unique (h : d.Means v) (h' : d.Means w) : v = w := by
  induction h generalizing w with
  | null =>
      cases h'
      rfl
  | boolean b =>
      cases h'
      rfl
  | numeral hnumber =>
      cases h' with
      | numeral hnumber' => rw [Option.some.inj (hnumber.symm.trans hnumber')]
  | literal s =>
      cases h'
      rfl
  | @array items vs hlength hitems ih =>
      cases h' with
      | @array _ vs' hlength' hitems' =>
          refine congrArg Value.array (List.ext_getElem (hlength.symm.trans hlength') ?_)
          intro i hi hi'
          have hitem : items[i]? = some items[i] := List.getElem?_eq_getElem (hlength ▸ hi)
          exact ih i _ _ hitem (List.getElem?_eq_getElem hi)
            (hitems' i _ _ hitem (List.getElem?_eq_getElem hi'))
  | embedded htext hdoc hmeans ih =>
      cases h' with
      | embedded htext' hdoc' hmeans' =>
          cases htext.symm.trans htext'
          cases hdoc.symm.trans hdoc'
          exact ih hmeans'
      | object habsent' _ _ _ => cases htext.symm.trans habsent'
  | @object members ms habsent hascending hkeys hvalues ih =>
      cases h' with
      | embedded htext' _ _ => cases habsent.symm.trans htext'
      | @object _ ms' habsent' hascending' hkeys' hvalues' =>
          refine congrArg Value.object (eq_of_lookup hascending hascending' fun k => ?_)
          -- Both have the keys of the document, and under each what one of its members means.
          have hsame : (ms.lookup k).isSome = (ms'.lookup k).isSome :=
            (hkeys k).trans (hkeys' k).symm
          cases hv : ms.lookup k with
          | none =>
              rw [hv] at hsame
              exact (Option.not_isSome_iff_eq_none.mp (by rw [← hsame]; decide)).symm
          | some v =>
              rw [hv] at hsame
              obtain ⟨v', hv'⟩ := Option.isSome_iff_exists.mp hsame.symm
              have hlast : (members.reverse.lookup (some k)).isSome = true := by
                rw [← hkeys k, hv]
                rfl
              obtain ⟨d, hd⟩ := Option.isSome_iff_exists.mp hlast
              rw [hv', ih k d v hd hv (hvalues' k d v' hd hv')]

variable {inner? : String → Option Value} {depth : Nat}

theorem isSome_value?_of_mem {members : List (Option String × Doc)}
    {done ms : List (String × Value)} (h : memberValues? inner? depth members done = some ms) :
    ∀ m ∈ members, (m.2.value? inner? depth).isSome = true := by
  induction members generalizing done with
  | nil => exact List.forall_mem_nil _
  | cons m members ih =>
      obtain ⟨k, v, -, hv, hrest⟩ := memberValues?_cons h
      exact List.forall_mem_cons.mpr ⟨by rw [hv]; rfl, ih hrest⟩

/-- A document is read as what it means, if the texts inside it are. -/
theorem Doc.means_of_value?
    (hinner : ∀ s v, inner? s = some v → ∃ d, Doc.ofText? s = some d ∧ d.Means v)
    (d : Doc) (v : Value) (h : d.value? inner? depth = some v) : d.Means v := by
  induction d generalizing depth v with
  | null =>
      obtain rfl := Option.some.inj h
      exact .null
  | boolean b =>
      obtain rfl := Option.some.inj h
      exact .boolean b
  | numeral n =>
      obtain ⟨x, hx, rfl⟩ := Option.map_eq_some_iff.mp h
      exact .numeral hx
  | literal s =>
      obtain ⟨text, rfl, rfl⟩ := Option.map_eq_some_iff.mp h
      exact .literal text
  | array items ih =>
      cases depth with
      | zero => cases h
      | succ depth =>
          obtain ⟨vs, hvs, rfl⟩ := Option.map_eq_some_iff.mp h
          obtain ⟨hlength, hitems⟩ := getElem?_itemValues? hvs
          exact .array hlength fun i d v hd hv =>
            ih d (List.mem_of_getElem? hd) v (hitems i d v hd hv)
  | object members ih =>
      cases depth with
      | zero => cases h
      | succ depth =>
          rw [value?] at h
          cases hembedded : Embedded.of members with
          | text s =>
              rw [hembedded] at h
              obtain ⟨d, hd, hmeans⟩ := hinner s v h
              exact .embedded hembedded hd hmeans
          | broken =>
              rw [hembedded] at h
              cases h
          | absent =>
              rw [hembedded] at h
              obtain ⟨ms, hms, rfl⟩ := Option.map_eq_some_iff.mp h
              have hlookup := lookup_memberValues? hms
              have hmem : ∀ {k d}, members.reverse.lookup (some k) = some d →
                  (some k, d) ∈ members := by
                intro k d hd
                obtain ⟨before, behind, heq, -⟩ := List.lookup_eq_some_iff.mp hd
                rw [← List.mem_reverse, heq]
                exact List.mem_append_right _ List.mem_cons_self
              refine .object hembedded (ascending_memberValues? List.Pairwise.nil hms)
                (fun k => ?_) fun k d v hd hv => ?_
              · rw [hlookup k]
                cases hd : members.reverse.lookup (some k) with
                | none => rfl
                | some d => exact isSome_value?_of_mem hms _ (hmem hd)
              · rw [hlookup k, hd] at hv
                exact ih _ (hmem hd) v hv

theorem Value.means_of_ofNested? (levels : Nat) (s : String) (v : Value)
    (h : ofNested? levels s = some v) : ∃ d, Doc.ofText? s = some d ∧ d.Means v := by
  induction levels generalizing s v with
  | zero => cases h
  | succ levels ih =>
      obtain ⟨d, hd, hv⟩ := Option.bind_eq_some_iff.mp h
      exact ⟨d, hd, d.means_of_value? ih v hv⟩

/-- **A text is read as what its document means.** -/
theorem Value.means_of_ofText? {s : String} (h : ofText? s = some v)
    (hd : Doc.ofText? s = some d) : d.Means w ↔ w = v := by
  obtain ⟨d', hd', hmeans⟩ := means_of_ofNested? _ s v h
  obtain rfl := Option.some.inj (hd'.symm.trans hd)
  exact ⟨fun h => h.unique hmeans, fun heq => heq ▸ hmeans⟩

end ResponseExport.Json
