import Mathlib.Data.List.GetD
import IrcordServer.Db.FileTables
import IrcordServer.Run

/-!
# Which chunks of a file are missing

An index goes into the table as an `int` and comes back as a `uint32_t`, and `getMissingChunks`
reads the rows in whatever order the table has them.  The three queries agree with each other and
with what `storeChunk` stored; a null vector it does not store.
-/

open Container Run

namespace Ircord

@[simp] theorem toUInt32_toInt32 (i : UInt32) : toUInt32 (toInt32 i) = i := by
  have h : (BitVec.ofInt 32 (toInt32 i)).toNat = i.toNat := by
    unfold toInt32
    rw [BitVec.ofInt_toInt]
    rfl
  rw [BitVec.toNat_ofInt] at h
  unfold toUInt32 UInt32.ofInt
  apply UInt32.toNat_inj.1
  exact (UInt32.toNat_ofNat_of_lt' (lt_of_eq_of_lt h i.toNat_lt)).trans h

namespace FileStore

variable {db : Database} {fileId : Str} {n i : UInt32}

/-! ## The bitmap -/

theorem length_markChunk (has : List Bool) (idx : UInt32) :
    (markChunk n has idx).length = has.length := by
  unfold markChunk
  split_ifs
  · exact List.length_set
  · rfl

theorem getD_markChunk {has : List Bool} (hlength : has.length = n.toNat) (idx : UInt32) :
    (markChunk n has idx).getD i.toNat false = true ↔
      has.getD i.toNat false = true ∨ i < n ∧ i = idx := by
  unfold markChunk
  split_ifs with hidx
  · by_cases hi : i = idx
    · subst hi
      have hlt : i.toNat < has.length := by rw [hlength]; exact hidx
      simp [List.getD_eq_getElem?_getD, hlt, hidx]
    · have hne : idx.toNat ≠ i.toNat := fun h => hi (UInt32.toNat_inj.1 h).symm
      simp [List.getD_eq_getElem?_getD, hne, hi]
  · constructor
    · exact Or.inl
    · rintro (h | ⟨hlt, rfl⟩)
      · exact h
      · exact absurd hlt hidx

/-- The scan sets the bits of the rows it read. -/
theorem getD_foldl_markChunk (rows : List UInt32) {has : List Bool}
    (hlength : has.length = n.toNat) :
    (rows.foldl (markChunk n) has).getD i.toNat false = true ↔
      has.getD i.toNat false = true ∨ i < n ∧ i ∈ rows := by
  induction rows generalizing has with
  | nil => simp
  | cons idx rows ih =>
    rw [List.foldl_cons, ih ((length_markChunk has idx).trans hlength), getD_markChunk hlength,
      List.mem_cons, or_assoc, ← and_or_left]

theorem mem_chunkIndices :
    i ∈ chunkIndices db fileId ↔ ∃ k, (fileId, k) ∈ db.fileChunks ∧ toUInt32 k = i := by
  unfold chunkIndices
  constructor
  · intro h
    obtain ⟨⟨⟨id, k⟩, row⟩, he, hi⟩ := List.mem_map.1 h
    obtain ⟨hmem, hid⟩ := List.mem_filter.1 he
    obtain rfl : id = fileId := beq_iff_eq.1 hid
    exact ⟨k, UnorderedMap.mem_iff_lookup.2 ⟨row, UnorderedMap.lookup_eq_some_of_mem_entries hmem⟩,
      hi⟩
  · rintro ⟨k, hk, hi⟩
    obtain ⟨row, hrow⟩ := UnorderedMap.mem_iff_lookup.1 hk
    apply List.mem_map.2
    refine ⟨⟨(fileId, k), row⟩, List.mem_filter.2 ⟨?_, beq_self_eq_true _⟩, hi⟩
    exact AList.mem_lookup_iff.1 hrow

theorem toNat_ofNat_of_mem_range {k : ℕ} (h : k ∈ List.range n.toNat) :
    (UInt32.ofNat k).toNat = k := by
  apply UInt32.toNat_ofNat_of_lt'
  exact (List.mem_range.1 h).trans n.toNat_lt

/-- What is missing is what no row stands for. -/
theorem mem_getMissingChunks :
    i ∈ getMissingChunks db fileId n ↔ i < n ∧ i ∉ chunkIndices db fileId := by
  have hbit := getD_foldl_markChunk (i := i) (chunkIndices db fileId)
    (List.length_replicate (n := n.toNat) (a := false))
  have hrange : i ∈ (List.range n.toNat).map UInt32.ofNat ↔ i < n := by
    constructor
    · intro h
      obtain ⟨k, hk, rfl⟩ := List.mem_map.1 h
      rw [UInt32.lt_iff_toNat_lt, toNat_ofNat_of_mem_range hk]
      exact List.mem_range.1 hk
    · intro h
      exact List.mem_map.2 ⟨i.toNat, List.mem_range.2 h, UInt32.ofNat_toNat⟩
  unfold getMissingChunks
  rw [List.mem_filter, hrange, Bool.not_eq_true', ← Bool.not_eq_true, hbit]
  constructor
  · rintro ⟨hlt, hclear⟩
    exact ⟨hlt, fun hrow => hclear (Or.inr ⟨hlt, hrow⟩)⟩
  · rintro ⟨hlt, hrow⟩
    refine ⟨hlt, ?_⟩
    rintro (h | ⟨-, h⟩)
    · rw [List.getD_replicate false (UInt32.lt_iff_toNat_lt.1 hlt)] at h
      cases h
    · exact hrow h

theorem pairwise_getMissingChunks (db : Database) (fileId : Str) (n : UInt32) :
    (getMissingChunks db fileId n).Pairwise (· < ·) := by
  unfold getMissingChunks
  apply List.Pairwise.filter
  apply List.pairwise_map.2
  apply List.pairwise_lt_range.imp_of_mem
  intro j k hj hk hlt
  rw [UInt32.lt_iff_toNat_lt, toNat_ofNat_of_mem_range hj, toNat_ofNat_of_mem_range hk]
  exact hlt

/-! ## The chunks of a file -/

theorem isSome_getChunk (db : Database) (fileId : Str) (i : UInt32) :
    (getChunk db fileId i).isSome = hasChunk db fileId i :=
  Option.isSome_map

end FileStore

open FileStore

/-- A call of `storeChunk`. -/
structure StoreCall where
  fileId : Str
  index : UInt32
  data : ByteVector
  deriving DecidableEq

namespace StoreCall

def step (db : Database) (c : StoreCall) : Database := (storeChunk db c.fileId c.index c.data).2

/-- The call, if it returns true. -/
def stored (db : Database) (c : StoreCall) : Option StoreCall :=
  if (storeChunk db c.fileId c.index c.data).1 then some c else none

/-- The call is on a file that is there, and its vector is not null. -/
def onFile (db : Database) (c : StoreCall) : Bool :=
  decide (c.fileId ∈ db.files) && c.data.hasBuffer

def isFor (fileId : Str) (index : UInt32) (c : StoreCall) : Bool :=
  c.fileId == fileId && c.index == index

/-- The data of the last of the calls for a chunk. -/
def lastData (fileId : Str) (index : UInt32) (calls : List StoreCall) : Option Bytes :=
  (calls.filter (isFor fileId index)).getLast?.map (·.data.bytes)

theorem isFor_iff {fileId : Str} {index : UInt32} {c : StoreCall} :
    isFor fileId index c = true ↔ fileId = c.fileId ∧ index = c.index := by
  unfold isFor
  rw [Bool.and_eq_true, beq_iff_eq, beq_iff_eq, eq_comm, @eq_comm _ c.index]

theorem lastData_snoc (fileId : Str) (index : UInt32) (calls : List StoreCall) (c : StoreCall) :
    lastData fileId index (calls ++ [c]) =
      if fileId = c.fileId ∧ index = c.index then some c.data.bytes else
        lastData fileId index calls := by
  unfold lastData
  rw [List.filter_append]
  split_ifs with h
  · rw [List.filter_cons_of_pos (isFor_iff.2 h), List.filter_nil, List.getLast?_concat]
    rfl
  · rw [List.filter_cons_of_neg (fun hfor => h (isFor_iff.1 hfor)), List.filter_nil,
      List.append_nil]

theorem lastData_eq_none_iff {fileId : Str} {index : UInt32} {calls : List StoreCall} :
    lastData fileId index calls = none ↔ ∀ c ∈ calls, c.fileId = fileId → c.index ≠ index := by
  unfold lastData
  rw [Option.map_eq_none_iff, List.getLast?_eq_none_iff, List.filter_eq_nil_iff]
  apply forall₂_congr
  intro c _
  rw [isFor_iff, not_and, eq_comm, @eq_comm _ index]

/-- The file's chunks in the table are those of the calls, under indices that `storeChunk` binds. -/
structure Holds (db : Database) (fileId : Str) (calls : List StoreCall) : Prop where
  keys : ∀ k, (fileId, k) ∈ db.fileChunks → ∃ j : UInt32, k = toInt32 j
  chunks : ∀ i, getChunk db fileId i = lastData fileId i calls

variable {db : Database} {fileId : Str} {calls : List StoreCall}

theorem Holds.empty (h : ∀ k, (fileId, k) ∉ db.fileChunks) : Holds db fileId [] where
  keys k hk := absurd hk (h k)
  chunks i := by
    unfold getChunk
    rw [AList.lookup_eq_none.2 (h (toInt32 i))]
    rfl

theorem Holds.insert (h : Holds db fileId calls) {db' : Database} (c : StoreCall)
    (hinsert : db'.fileChunks =
      db.fileChunks.insert (c.fileId, toInt32 c.index) ⟨c.data.bytes, c.data.bytes.length⟩) :
    Holds db' fileId (calls ++ [c]) where
  keys k hk := by
    rw [hinsert] at hk
    rcases UnorderedMap.mem_insert_iff.1 hk with e | hk
    · exact ⟨c.index, (Prod.mk.inj e).2⟩
    · exact h.keys k hk
  chunks i := by rw [getChunk_insert hinsert, lastData_snoc, h.chunks]

theorem Holds.mem_chunkIndices_iff (h : Holds db fileId calls) (i : UInt32) :
    i ∈ chunkIndices db fileId ↔ hasChunk db fileId i = true := by
  unfold hasChunk
  rw [AList.lookup_isSome, mem_chunkIndices]
  constructor
  · rintro ⟨k, hk, rfl⟩
    obtain ⟨j, rfl⟩ := h.keys k hk
    rwa [toUInt32_toInt32]
  · intro hmem
    exact ⟨toInt32 i, hmem, toUInt32_toInt32 i⟩

/-- What the three queries say of a file when these calls stored its chunks. -/
structure Answered (db : Database) (fileId : Str) (calls : List StoreCall) : Prop where
  ordered : ∀ n, (getMissingChunks db fileId n).Pairwise (· < ·)
  missing : ∀ n i, i ∈ getMissingChunks db fileId n ↔
    i < n ∧ ∀ c ∈ calls, c.fileId = fileId → c.index ≠ i
  agree : ∀ n i, i < n → (i ∈ getMissingChunks db fileId n ↔ hasChunk db fileId i = false)
  last : ∀ i, getChunk db fileId i = lastData fileId i calls

theorem Holds.answered (h : Holds db fileId calls) : Answered db fileId calls := by
  have hhas : ∀ i, hasChunk db fileId i = false ↔
      ∀ c ∈ calls, c.fileId = fileId → c.index ≠ i := by
    intro i
    rw [← isSome_getChunk, h.chunks, ← lastData_eq_none_iff, Option.isSome_eq_false_iff,
      Option.isNone_iff_eq_none]
  have hmem : ∀ n i, i ∈ getMissingChunks db fileId n ↔ i < n ∧ hasChunk db fileId i = false := by
    intro n i
    rw [mem_getMissingChunks, h.mem_chunkIndices_iff, Bool.not_eq_true]
  exact
    { ordered := pairwise_getMissingChunks db fileId
      missing := fun n i => by rw [hmem, hhas]
      agree := fun n i hlt => by rw [hmem, and_iff_right hlt]
      last := h.chunks }

/-! ## Sequences of calls -/

theorem Holds.step (h : Holds db fileId calls) (c : StoreCall) :
    Holds (step db c) fileId (calls ++ (stored db c).toList) := by
  unfold StoreCall.step stored
  rcases storeVector_cases db c.fileId c.index c.data with e | ⟨-, -, hok, -, hinsert⟩
  · rw [e, if_neg Bool.false_ne_true, Option.toList_none, List.append_nil]
    exact h
  · rw [if_pos hok]
    exact h.insert c hinsert

theorem files_step (db : Database) (c : StoreCall) : (step db c).files = db.files := by
  unfold step
  rcases storeVector_cases db c.fileId c.index c.data with e | ⟨-, -, -, hfiles, -⟩
  · rw [e]
  · exact hfiles

theorem toList_stored (db : Database) (c : StoreCall) :
    (stored db c).toList = [c].filter (onFile db) := by
  unfold stored
  rw [storeVector_fst, List.filter_cons, List.filter_nil, onFile]
  split_ifs <;> rfl

theorem onFile_congr {db' : Database} (h : db'.files = db.files) : onFile db' = onFile db := by
  funext c
  rw [onFile, onFile, h]

theorem observe_stored (db : Database) (calls : List StoreCall) :
    observe step stored db calls = calls.filter (onFile db) := by
  induction calls generalizing db with
  | nil => rfl
  | cons c calls ih =>
    rw [observe, ih, onFile_congr (files_step db c), toList_stored, ← List.filter_append,
      List.singleton_append]

theorem holds_final (hnew : ∀ k, (fileId, k) ∉ db.fileChunks) (calls : List StoreCall) :
    Holds (final step db calls) fileId (observe step stored db calls) := by
  apply history_induction (H := fun calls db' => Holds db' fileId (observe step stored db calls))
  · exact Holds.empty hnew
  · intro calls c h
    rw [observe_snoc]
    exact h.step c

/-- After any sequence of calls: those on existing files stored their data, and the queries answer
for what was stored. -/
theorem chunks_answered (db : Database) (calls : List StoreCall) (fileId : Str)
    (hnew : ∀ k, (fileId, k) ∉ db.fileChunks) :
    observe step stored db calls = calls.filter (onFile db) ∧
      Answered (final step db calls) fileId (observe step stored db calls) :=
  ⟨observe_stored db calls, (holds_final hnew calls).answered⟩

/-- A new file in tables that have nothing else. -/
def newFile : Database :=
  (createFile .empty {
    fileId := str "f"
    filename := str "a.txt"
    fileSize := 3
    mimeType := []
    senderId := str "alice"
    recipientId := str "bob"
    channelId := [] } 0).2

/-- The first chunk, and one whose index is negative as an `int`. -/
def twoChunks : List StoreCall :=
  [⟨str "f", 0x80000000, .ofRange [1]⟩, ⟨str "f", 0, .ofRange [2]⟩,
    ⟨str "f", 0x80000000, .ofRange [3]⟩]

theorem chunks_answered_twoChunks :
    getMissingChunks (final step newFile twoChunks) (str "f") 3 = [1, 2] ∧
      getChunk (final step newFile twoChunks) (str "f") 0x80000000 = some [3] ∧
      observe step stored newFile twoChunks = twoChunks.filter (onFile newFile) ∧
      Answered (final step newFile twoChunks) (str "f")
        (observe step stored newFile twoChunks) :=
  ⟨by decide +kernel, by decide +kernel,
    chunks_answered newFile twoChunks (str "f") fun _ => List.not_mem_nil⟩

/-- A chunk with data, and then one whose vector is null. -/
def nullAfterData : List StoreCall := [⟨str "f", 0, .ofRange [1]⟩, ⟨str "f", 0, .null⟩]

/-- The last call on an existing file may store nothing: the chunk that was there stays. -/
theorem not_lastData_nullAfterData :
    ¬ ∀ (db : Database) (calls : List StoreCall) (fileId : Str),
      (∀ k, (fileId, k) ∉ db.fileChunks) → (∀ c ∈ calls, c.fileId ∈ db.files) →
      ∀ i, getChunk (final step db calls) fileId i = lastData fileId i calls := by
  intro hall
  have hfile : ∀ c ∈ nullAfterData, c.fileId ∈ newFile.files := by decide
  have hlast := hall newFile nullAfterData (str "f") (fun _ => List.not_mem_nil) hfile 0
  exact absurd hlast (by decide +kernel)

/-- An empty vector that has a buffer is a chunk. -/
example : (storeChunk newFile (str "f") 0 .cleared).1 = true ∧
    getChunk (storeChunk newFile (str "f") 0 .cleared).2 (str "f") 0 = some [] := by
  decide +kernel

end StoreCall

end Ircord
