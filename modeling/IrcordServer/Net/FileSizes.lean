import IrcordServer.Net.FileUploads

/-!
# How much is stored of a file

The limit on the size of a file is checked on the size that is announced.  What is stored stays
within it as long as every chunk does.
-/

open Container Run

namespace Ircord

namespace Server

variable {codec : Codec} {crypto : Crypto} {sv : Server} {i : Input}

/-- No file has more bytes stored than were announced for it, and those are within the limit. -/
def WithinDeclared (sv : Server) : Prop :=
  ∀ fileId row, sv.db.files.lookup fileId = some row →
    FileStore.storedBytes sv.db fileId ≤ row.fileSize ∧ row.fileSize ≤ maxFileSize

/-- With a chunk that the step stores, the file has at most the size that was announced. -/
def FitsDeclared (codec : Codec) (sv : Server) (i : Input) : Prop :=
  ∀ chunk upload row, sv.storedChunk codec i = some (chunk, upload) →
    sv.db.files.lookup chunk.fileId = some row →
      chunk.data.length + FileStore.otherBytes sv.db chunk.fileId chunk.chunkIndex ≤ row.fileSize

theorem fitsDeclared_of_none (h : sv.storedChunk codec i = none) : FitsDeclared codec sv i := by
  intro chunk upload row hstored
  rw [h] at hstored
  cases hstored

theorem withinDeclared_step_iff (h : WithinDeclared sv) :
    WithinDeclared (step codec crypto sv i) ↔ FitsDeclared codec sv i := by
  rcases fileStep codec crypto sv i with ⟨-, hstored, hfiles, hchunks⟩ |
    ⟨-, hstored, hfiles, hchunks⟩ |
    ⟨req, row, hcreated, hstored, hnew, hsize, -, hfiles, hchunks⟩ |
    ⟨chunk, upload, -, hstored, -, hfiles, hchunks⟩
  · refine iff_of_true (fun id row hrow => ?_) (fitsDeclared_of_none hstored)
    rw [hfiles] at hrow
    rw [FileStore.storedBytes_congr hchunks]
    exact h id row hrow
  · refine iff_of_true (fun id row hrow => ?_) (fitsDeclared_of_none hstored)
    rw [hfiles] at hrow
    have hmem := UnorderedMap.mem_iff_lookup.2 ⟨row, hrow⟩
    rw [FileStore.lookup_files_cleanupExpired] at hrow
    rw [FileStore.storedBytes_congr hchunks, FileStore.storedBytes_cleanupExpired hmem]
    exact h id row (Option.filter_eq_some_iff.1 hrow).1
  · refine iff_of_true (fun id row' hrow => ?_) (fitsDeclared_of_none hstored)
    rw [hfiles, UnorderedMap.lookup_insert_ite] at hrow
    rw [FileStore.storedBytes_congr hchunks]
    split_ifs at hrow with hid
    · cases hrow
      rw [hid, FileStore.storedBytes_of_notMem hnew, hsize]
      exact ⟨Nat.zero_le _, (accepts_of_createdFile hcreated).2.1⟩
    · exact h id row' hrow
  · have hrows (id : Str) (row : FileRow)
        (hrow : (step codec crypto sv i).db.files.lookup id = some row) :
        ∃ old, sv.db.files.lookup id = some old ∧ old.fileSize = row.fileSize := by
      rw [hfiles] at hrow
      split_ifs at hrow
      · obtain ⟨old, hold, rfl⟩ := Option.map_eq_some_iff.1 hrow
        exact ⟨old, hold, rfl⟩
      · exact ⟨row, hrow, rfl⟩
    have hbytes := FileStore.storedBytes_insert hchunks
    constructor
    · intro h' chunk' upload' row hstored' hrow
      cases hstored.symm.trans hstored'
      have hlookup : ∃ row', (step codec crypto sv i).db.files.lookup chunk.fileId = some row' ∧
          row'.fileSize = row.fileSize := by
        rw [hfiles, hrow]
        split_ifs
        · exact ⟨_, rfl, rfl⟩
        · exact ⟨_, rfl, rfl⟩
      obtain ⟨row', hrow', hsize⟩ := hlookup
      rw [← hbytes, ← hsize]
      exact (h' chunk.fileId row' hrow').1
    · intro hfits id row hrow
      obtain ⟨old, hold, hsize⟩ := hrows id row hrow
      rw [← hsize]
      refine ⟨?_, (h id old hold).2⟩
      by_cases hid : id = chunk.fileId
      · subst hid
        rw [hbytes]
        exact hfits chunk upload old hstored hold
      · rw [FileStore.storedBytes_insert_of_ne hid hchunks]
        exact (h id old hold).1

/-- From any server that has stored no more than was announced, the runs in which it never does are
the runs in which every chunk fits. -/
theorem stored_bytes_within_declared_iff (codec : Codec) (crypto : Crypto) (sv : Server)
    (hsv : WithinDeclared sv) (is : List Input) :
    AllStates (step codec crypto) WithinDeclared sv is ↔
      AllSteps (step codec crypto) (FitsDeclared codec) sv is :=
  allStates_iff_allSteps hsv fun _ _ h => withinDeclared_step_iff h

theorem withinDeclared_start (config : Config) : WithinDeclared (start config .empty) := by
  intro id row hrow
  cases hrow

/-! ## A chunk that does not fit -/

/-- `alice` announces 20 bytes in pieces of 10, and sends 30. -/
def overlongRun : List Input :=
  (loginEvents 0 (str "alice") aliceSignature ++ Archive.requestEvents 0 ++
    Archive.chunkEvents 0 ⟨str "f", 0, List.replicate 30 1, false⟩).map Event.atZero

theorem not_withinDeclared_overlongRun :
    ¬ AllStates (step .proto3 aliceBobCrypto) WithinDeclared (start ⟨10, 10, 10, []⟩ .empty)
        overlongRun := by
  intro h
  have hrow : ∃ row ∈ (final (step .proto3 aliceBobCrypto) (start ⟨10, 10, 10, []⟩ .empty)
      overlongRun).db.files.lookup (str "f"), row.fileSize = 20 := by
    decide +kernel
  have hbytes : FileStore.storedBytes (final (step .proto3 aliceBobCrypto)
      (start ⟨10, 10, 10, []⟩ .empty) overlongRun).db (str "f") = 30 := by
    decide +kernel
  obtain ⟨row, hrow, hsize⟩ := hrow
  have hle := (h.final (str "f") row hrow).1
  rw [hbytes, hsize] at hle
  exact absurd hle (by decide)

theorem stored_bytes_within_declared_iff_wholeRun :
    FileStore.storedBytes (final (step .proto3 aliceBobCrypto) (start ⟨10, 10, 10, []⟩ .empty)
        Archive.wholeRun).db (str "f") = 20 ∧
      (AllStates (step .proto3 aliceBobCrypto) WithinDeclared (start ⟨10, 10, 10, []⟩ .empty)
          Archive.wholeRun ↔
        AllSteps (step .proto3 aliceBobCrypto) (FitsDeclared .proto3)
          (start ⟨10, 10, 10, []⟩ .empty) Archive.wholeRun) :=
  ⟨by decide +kernel, stored_bytes_within_declared_iff .proto3 aliceBobCrypto
    (start ⟨10, 10, 10, []⟩ .empty) (withinDeclared_start ⟨10, 10, 10, []⟩) Archive.wholeRun⟩

end Server

end Ircord
