import ResponseExport.Proofs.Export.Writing

/-!
# `ResponseExport.Proofs.Export.Files`: which file is whose

`Directory.data?` is what the file of a name holds. Each operation on the directory is
about one name, and leaves the files of all other names alone.

Exports keep out of each other's way because their files have different names. The
name of a stored file ends with the id of the export, and ids are UUIDs: they all have
the same length, and nothing in them has to be replaced in the name of a file. So two
names are the same only if the ids are (`stored_injective`), whatever the surveys and
the times are.
-/

set_option autoImplicit false

namespace ResponseExport.Export

namespace Directory

variable {d d' : Directory} {name other : String} {data : List UInt8}

/-- What the file of this name holds, if it is there. -/
def data? (d : Directory) (name : String) : Option (List UInt8) :=
  ((d.files?.getD []).find? fun f => f.name == name).map StoredFile.data

/-- The directory is there. -/
def IsPresent (d : Directory) : Prop := ∃ files, d = .present files

theorem find?_put_of_ne (hne : other ≠ name) (data : List UInt8) (files : List StoredFile) :
    (put other data files).find? (fun f => f.name == name)
      = files.find? fun f => f.name == name := by
  induction files with
  | nil => simp [put, hne]
  | cons f files ih =>
      rw [put]
      split
      · rename_i hname
        rw [List.find?_cons_of_neg (by simpa using hne), List.find?_cons_of_neg]
        rw [hname]
        simpa using hne
      · rw [List.find?_cons, List.find?_cons, ih]

theorem make_eq_ok (h : d.make = .ok d') : d'.IsPresent ∧ ∀ name, d'.data? name = d.data? name := by
  cases d with
  | absent =>
      cases h
      exact ⟨⟨[], rfl⟩, fun _ => rfl⟩
  | blocked => cases h
  | present files =>
      cases h
      exact ⟨⟨files, rfl⟩, fun _ => rfl⟩

theorem create_eq_ok (h : d.create other = .ok d') :
    d'.IsPresent ∧ ∀ name, other ≠ name → d'.data? name = d.data? name := by
  cases d with
  | absent => cases h
  | blocked => cases h
  | present files =>
      rw [create] at h
      split at h
      · cases h
      · cases h
        refine ⟨⟨_, rfl⟩, fun name hne => ?_⟩
        exact congrArg (Option.map StoredFile.data) (find?_put_of_ne hne [] files)

/-- A directory takes no name that is too long. -/
theorem length_le_of_create (h : d.create name = .ok d') : name.utf8ByteSize ≤ Disk.maxName := by
  cases d with
  | absent => cases h
  | blocked => cases h
  | present files =>
      rw [create] at h
      split at h
      · cases h
      · exact Nat.not_lt.mp ‹_›

/-- A directory that is there takes a file of any other name. -/
theorem create_of_le (h : name.utf8ByteSize ≤ Disk.maxName) (files : List StoredFile) :
    (present files).create name = .ok (.present (put name [] files)) := by
  rw [create, if_neg (Nat.not_lt.mpr h)]

theorem create_of_lt (h : Disk.maxName < name.utf8ByteSize) (files : List StoredFile) :
    (present files).create name = .error .nameTooLong := by
  rw [create, if_pos h]

theorem isPresent_write (h : d.IsPresent) (name : String) (data : List UInt8) :
    (d.write name data).IsPresent := by
  obtain ⟨files, rfl⟩ := h
  exact ⟨_, rfl⟩

theorem data?_write (h : d.IsPresent) (name : String) (data : List UInt8) :
    (d.write name data).data? name = some data := by
  obtain ⟨files, rfl⟩ := h
  exact congrArg (Option.map StoredFile.data) (Task.find?_put name data files)

theorem data?_write_of_ne (hne : other ≠ name) (d : Directory) (data : List UInt8) :
    (d.write other data).data? name = d.data? name := by
  cases d with
  | absent => rfl
  | blocked => rfl
  | present files => exact congrArg (Option.map StoredFile.data) (find?_put_of_ne hne data files)

theorem isPresent_remove (h : d.IsPresent) (name : String) : (d.remove name).IsPresent := by
  obtain ⟨files, rfl⟩ := h
  exact ⟨_, rfl⟩

theorem data?_remove (d : Directory) (name : String) : (d.remove name).data? name = none := by
  cases d with
  | absent => rfl
  | blocked => rfl
  | present files =>
      have hnone : (files.filter fun f => f.name != name).find? (fun f => f.name == name) = none := by
        rw [List.find?_eq_none]
        intro f hf
        simpa using (List.mem_filter.mp hf).2
      exact congrArg (Option.map StoredFile.data) hnone

theorem data?_remove_of_ne (hne : other ≠ name) (d : Directory) :
    (d.remove other).data? name = d.data? name := by
  cases d with
  | absent => rfl
  | blocked => rfl
  | present files =>
      have hsame : (files.filter fun f => f.name != other).find? (fun f => f.name == name)
          = files.find? fun f => f.name == name := by
        rw [List.find?_filter]
        refine congrArg (fun p => List.find? p files) (funext fun f => ?_)
        by_cases hname : f.name = name
        · simp [hname, Ne.symm hne]
        · simp [hname]
      exact congrArg (Option.map StoredFile.data) hsame

end Directory

/-! ### Ids of exports, and names of files -/

/-- A hexadecimal digit, in lower case. -/
def isHexDigit (c : Char) : Bool := c.isDigit || ('a' ≤ c && c ≤ 'f')

/-- Has a text the form of a UUID? 32 hexadecimal digits stand in five groups, with hyphens
between them. -/
def isUuid (id : String) : Bool :=
  id.toList.length == 36 &&
    id.toList.zipIdx.all fun (c, i) => if [8, 13, 18, 23].contains i then c == '-' else isHexDigit c

theorem isKept_of_isHexDigit {c : Char} (h : isHexDigit c = true) : FileName.isKept c = true := by
  rw [isHexDigit, Bool.or_eq_true, Bool.and_eq_true] at h
  have hgroups : c.isAlphanum = (c.isUpper || c.isLower || c.isDigit) := rfl
  have halphanum : c.isAlphanum = true := by
    rcases h with hdigit | ⟨hlow, hhigh⟩
    · rw [hgroups, hdigit, Bool.or_true]
    · rw [decide_eq_true_iff, Char.le_def, UInt32.le_iff_toNat_le] at hlow hhigh
      have hlower : c.isLower = true := by
        show (decide (c.val ≥ 'a'.val) && decide (c.val ≤ 'z'.val)) = true
        have hz : c.val.toNat ≤ 'z'.val.toNat := Nat.le_trans hhigh (by decide)
        rw [Bool.and_eq_true, decide_eq_true_iff, decide_eq_true_iff]
        exact ⟨UInt32.le_iff_toNat_le.mpr hlow, UInt32.le_iff_toNat_le.mpr hz⟩
      rw [hgroups, hlower, Bool.or_true, Bool.true_or]
  rw [FileName.isKept, halphanum]
  rfl

theorem isKept_of_mem_uuid {id : String} (h : isUuid id = true) :
    ∀ c ∈ id.toList, FileName.isKept c = true := by
  rw [isUuid, Bool.and_eq_true] at h
  intro c hc
  rw [← List.zipIdx_map_fst 0 id.toList] at hc
  obtain ⟨⟨c, i⟩, hmem, rfl⟩ := List.mem_map.mp hc
  have hci := List.all_eq_true.mp h.2 _ hmem
  dsimp only at hci
  split at hci
  · obtain rfl : c = '-' := beq_iff_eq.mp hci
    rfl
  · exact isKept_of_isHexDigit hci

/-- Nothing in a UUID has to be replaced in the name of a file. -/
theorem sanitize_uuid {id : String} (h : isUuid id = true) : FileName.sanitize id = id := by
  have hmap : id.toList.map (fun c => if FileName.isKept c then c else '_') = id.toList := by
    rw [List.map_congr_left fun c hc => if_pos (isKept_of_mem_uuid h c hc), List.map_id']
  rw [FileName.sanitize, hmap, String.ofList_toList]

/-- **Names of stored files are apart.** Two exports have the same file name only if they have the
same id. -/
theorem stored_injective {survey survey' id id' : String} {t t' : Time.Instant}
    (hid : isUuid id = true) (hid' : isUuid id' = true)
    (h : FileName.stored survey id t = FileName.stored survey' id' t') : id = id' := by
  have hlength : id.toList.length = id'.toList.length := by
    rw [isUuid, Bool.and_eq_true] at hid hid'
    rw [beq_iff_eq.mp hid.1, beq_iff_eq.mp hid'.1]
  rw [FileName.stored, FileName.stored, sanitize_uuid hid, sanitize_uuid hid'] at h
  have hlist := congrArg String.toList h
  simp only [String.toList_append] at hlist
  have hname := List.append_cancel_right hlist
  exact String.toList_inj.mp (List.append_inj_right' hname hlength)

end ResponseExport.Export
