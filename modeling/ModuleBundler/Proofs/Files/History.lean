import ModuleBundler.Proofs.Files.Lookup
import ModuleBundler.Proofs.Table
import Mathlib.Algebra.BigOperators.Group.Finset.Basic

/-!
# The history of files in memory

A store keeps its files, the marks of those that cannot be read, and two counts of its reads, and every change and
every read writes some of these fields. Beside the store stands its history, the list of the calls so far. What was
last done to a file (`lastChange?`) tells whether the file is there, what it holds and whether it can be read. The
places that were read since the last reset (`readPlaces`) tell all counts.

A store that `Recounts` its calls says the same in its fields as they do. A call keeps this up (`Recounts.after`), so
every store recounts all of its calls (`recounts_run`). The answers of a store are then read off its history:
`fileStore_recounts` has them all.
-/

namespace ModuleBundler

/-! ### Calls of a store -/

/-- A change of the file at a path. -/
inductive FileChange where
  | insert (content : ByteArray)
  | insertUnreadable
  | remove

/-- What a store can be asked to do at a path. -/
inductive FileOp where
  | change (change : FileChange)
  | read
  | info
  | isThere
  | isFile
  | readsOf

/-- A call of a store. -/
inductive StoreCall where
  | on (p : Path) (op : FileOp)
  | resetReads

/-- The answer to a call. -/
inductive StoreAnswer where
  | done
  | truth (value : Bool)
  | content (result : Except FileError ByteArray)
  | info (result : Except FileError FileInfo)
  | count (number : Nat)

namespace FileStore

/-- The answer to a change, and the store after it. -/
def change (store : FileStore) (p : Path) : FileChange → StoreAnswer × FileStore
  | .insert content => (.done, store.insert p content)
  | .insertUnreadable => (.done, store.insertUnreadable p)
  | .remove => (.truth (store.remove p).1, (store.remove p).2)

/-- The answer to what is asked for at `p`, and the store after it. -/
def perform (store : FileStore) (p : Path) : FileOp → StoreAnswer × FileStore
  | .change c => store.change p c
  | .read => (.content (store.read p).1, (store.read p).2)
  | .info => (.info (store.info p), store)
  | .isThere => (.truth (store.exists? p), store)
  | .isFile => (.truth (store.isFile p), store)
  | .readsOf => (.count (store.readsOf p), store)

/-- The store after a call. -/
def after (store : FileStore) : StoreCall → FileStore
  | .on p op => (store.perform p op).2
  | .resetReads => store.resetReads

/-- The store after calls, one after the other. -/
def run (store : FileStore) (calls : List StoreCall) : FileStore := calls.foldl after store

end FileStore

/-! ### What calls did -/

/-- The content of a file after a change, if it is there. A file that cannot be read is an empty one. -/
def FileChange.content? : FileChange → Option ByteArray
  | .insert content => some content
  | .insertUnreadable => some ByteArray.empty
  | .remove => none

namespace StoreCall

/-- The change that a call makes to the file at the place `q`. -/
def changeAt? (directory q : Path) : StoreCall → Option FileChange
  | .on p (.change c) => if (directory.join p).clean = q then some c else none
  | _ => none

/-- The place that a call reads, whether it can be read or not. -/
def readPlace? (directory : Path) : StoreCall → Option Path
  | .on p .read => some (directory.join p).clean
  | _ => none

def isReset : StoreCall → Bool
  | .resetReads => true
  | _ => false

end StoreCall

section

variable (directory : Path) (calls : List StoreCall)

/-- What was last done to the file at the place `q`. -/
def lastChange? (q : Path) : Option FileChange := (calls.filterMap (·.changeAt? directory q)).getLast?

/-- Whether a file stands at the place `q`: what was last done to it, if anything, was not to remove it. -/
def Stands (q : Path) : Prop := ∃ c, lastChange? directory calls q = some c ∧ c ≠ .remove

/-- The places that were read since the last reset, the last one first. -/
def readPlaces : List Path := (calls.reverse.takeWhile (!·.isReset)).filterMap (·.readPlace? directory)

variable {directory calls}

theorem lastChange?_concat (call : StoreCall) (q : Path) :
    lastChange? directory (calls ++ [call]) q = (call.changeAt? directory q).or (lastChange? directory calls q) := by
  unfold lastChange?
  rw [List.filterMap_append, List.getLast?_append]
  cases h : call.changeAt? directory q <;> simp [h]

theorem readPlaces_concat (call : StoreCall) :
    readPlaces directory (calls ++ [call]) =
      if call.isReset then [] else (call.readPlace? directory).toList ++ readPlaces directory calls := by
  unfold readPlaces
  rw [List.reverse_append, List.reverse_singleton, List.singleton_append, List.takeWhile_cons]
  cases call.isReset with
  | true => rfl
  | false => cases h : call.readPlace? directory <;> simp [h]

/-- What was read is a place. -/
theorem isPlace_of_mem_readPlaces (ha : directory.isAbsolute = true) {q : Path} (h : q ∈ readPlaces directory calls) :
    q.IsPlace := by
  obtain ⟨call, -, hq⟩ := List.mem_filterMap.mp h
  unfold StoreCall.readPlace? at hq
  split at hq
  · exact Option.some.inj hq ▸ Path.isPlace_clean_join ha _
  · cases hq

theorem stands_iff {q : Path} :
    Stands directory calls q ↔ ((lastChange? directory calls q).bind FileChange.content?).isSome = true := by
  unfold Stands
  cases lastChange? directory calls q with
  | none => simp
  | some c => cases c <;> simp [FileChange.content?]

end

/-! ### What one call writes -/

namespace FileStore

variable {store : FileStore} {directory : Path}

/-- A change writes one file. -/
theorem get?_change (store : FileStore) (p : Path) (c : FileChange) (q : Path) :
    (store.change p c).2.files.get? q = if store.locate p = q then c.content? else store.files.get? q := by
  cases c with
  | insert content => exact Table.get?_put ..
  | insertUnreadable => exact Table.get?_put ..
  | remove => exact Table.get?_drop ..

/-- A change sets or takes away one mark. -/
theorem mem_unreadable_change (store : FileStore) (p : Path) (c : FileChange) (q : Path) :
    q ∈ (store.change p c).2.unreadable ↔
      if store.locate p = q then c = .insertUnreadable else q ∈ store.unreadable := by
  cases c with
  | insert content =>
    show q ∈ store.unreadable.filter (· ≠ store.locate p) ↔ _
    by_cases h : store.locate p = q <;> grind
  | insertUnreadable =>
    show q ∈ (if store.unreadable.contains (store.locate p) then store.unreadable
      else store.locate p :: store.unreadable) ↔ _
    by_cases h : store.locate p = q <;> by_cases hm : store.locate p ∈ store.unreadable <;> grind
  | remove =>
    show q ∈ store.unreadable.filter (· ≠ store.locate p) ↔ _
    by_cases h : store.locate p = q <;> grind

theorem locate_after (store : FileStore) (call : StoreCall) (p : Path) :
    (store.after call).locate p = store.locate p := by
  cases call with
  | resetReads => rfl
  | on q op =>
    cases op with
    | change c => cases c <;> rfl
    | _ => rfl

/-- A call writes the file that its history says, and no other one. -/
theorem get?_after (hl : ∀ p, store.locate p = (directory.join p).clean) (call : StoreCall) (q : Path) :
    (store.after call).files.get? q =
      ((call.changeAt? directory q).map FileChange.content?).getD (store.files.get? q) := by
  cases call with
  | resetReads => rfl
  | on p op =>
    cases op with
    | change c =>
      rw [after, perform, get?_change, hl, StoreCall.changeAt?]
      split <;> rfl
    | _ => rfl

/-- A call sets or takes away the mark that its history says, and no other one. -/
theorem mem_unreadable_after (hl : ∀ p, store.locate p = (directory.join p).clean) (call : StoreCall) (q : Path) :
    q ∈ (store.after call).unreadable ↔
      ((call.changeAt? directory q).map (· = .insertUnreadable)).getD (q ∈ store.unreadable) := by
  cases call with
  | resetReads => rfl
  | on p op =>
    cases op with
    | change c =>
      rw [after, perform, mem_unreadable_change, hl, StoreCall.changeAt?]
      split <;> rfl
    | _ => rfl

/-- A read counts for its place, and a reset sets all counts to zero. -/
theorem counts_after (hl : ∀ p, store.locate p = (directory.join p).clean) (call : StoreCall) :
    (store.after call).reads = (if call.isReset then 0 else (call.readPlace? directory).toList.length + store.reads) ∧
      ∀ q, ((store.after call).readsByPath.get? q).getD 0 =
        if call.isReset then 0
        else (call.readPlace? directory).toList.count q + (store.readsByPath.get? q).getD 0 := by
  cases call with
  | resetReads => exact ⟨rfl, fun _ => rfl⟩
  | on p op =>
    cases op with
    | change c => cases c <;> simp [after, perform, change, insert, insertUnreadable, remove, StoreCall.isReset,
        StoreCall.readPlace?]
    | read =>
      refine ⟨Nat.add_comm .., fun q => ?_⟩
      have hput := Table.get?_put store.readsByPath (store.locate p) q
        ((store.readsByPath.get? (store.locate p)).getD 0 + 1)
      show ((store.readsByPath.put _ _).get? q).getD 0 = [(directory.join p).clean].count q + _
      rw [hput, ← hl p, List.count_singleton]
      by_cases h : store.locate p = q
      · rw [if_pos h, if_pos (beq_iff_eq.mpr h), h]
        exact Nat.add_comm ..
      · rw [if_neg h, if_neg (mt beq_iff_eq.mp h), Nat.zero_add]
    | _ => simp [after, perform, StoreCall.isReset, StoreCall.readPlace?]

end FileStore

/-! ### A store that tells its history -/

/-- `Recounts directory calls store`: the fields of a store whose paths are seen from `directory` say the same as the
calls that were made. -/
structure FileStore.Recounts (directory : Path) (calls : List StoreCall) (store : FileStore) : Prop where
  locate_eq : ∀ p, store.locate p = (directory.join p).clean
  files_eq : ∀ q, store.files.get? q = (lastChange? directory calls q).bind FileChange.content?
  mem_unreadable_iff : ∀ q, q ∈ store.unreadable ↔ lastChange? directory calls q = some .insertUnreadable
  readsByPath_eq : ∀ q, (store.readsByPath.get? q).getD 0 = (readPlaces directory calls).count q
  reads_eq : store.reads = (readPlaces directory calls).length

namespace FileStore.Recounts

variable {directory : Path} {calls : List StoreCall} {store : FileStore}

/-- A store without files has nothing to tell. -/
theorem empty (ha : directory.isAbsolute = true) : Recounts directory [] (.empty directory) where
  locate_eq := Path.clean_join_clean ha
  files_eq _ := rfl
  mem_unreadable_iff q := by simp [FileStore.empty, lastChange?]
  readsByPath_eq _ := rfl
  reads_eq := rfl

/-- A call is told as well. -/
theorem after (h : Recounts directory calls store) (call : StoreCall) :
    Recounts directory (calls ++ [call]) (store.after call) where
  locate_eq p := (store.locate_after call p).trans (h.locate_eq p)
  files_eq q := by
    rw [get?_after h.locate_eq, h.files_eq, lastChange?_concat]
    cases call.changeAt? directory q <;> rfl
  mem_unreadable_iff q := by
    rw [mem_unreadable_after h.locate_eq, h.mem_unreadable_iff, lastChange?_concat]
    cases call.changeAt? directory q <;> simp
  readsByPath_eq q := by
    rw [(counts_after h.locate_eq call).2 q, h.readsByPath_eq, readPlaces_concat]
    split
    · rfl
    · rw [List.count_append]
  reads_eq := by
    rw [(counts_after h.locate_eq call).1, h.reads_eq, readPlaces_concat]
    split
    · rfl
    · rw [List.length_append]

end FileStore.Recounts

/-- **A store recounts all of its calls.** -/
theorem recounts_run {directory : Path} (ha : directory.isAbsolute = true) (calls : List StoreCall) :
    FileStore.Recounts directory calls ((FileStore.empty directory).run calls) := by
  induction calls using List.reverseRecOn with
  | nil => exact .empty ha
  | append_singleton calls call ih =>
    rw [FileStore.run, List.foldl_concat]
    exact ih.after call

/-! ### Answers -/

namespace FileStore

/-- What is asked for at a path is asked for at its place. -/
theorem perform_congr (store : FileStore) {p q : Path} (h : store.locate p = store.locate q) (op : FileOp) :
    store.perform p op = store.perform q op := by
  cases op with
  | change c => cases c <;> simp only [perform, change, insert, insertUnreadable, remove, h]
  | read => simp only [perform, read, contentAt, countRead, h]
  | info => simp only [perform, info, h]
  | isThere => simp only [perform, exists?, h]
  | isFile => simp only [perform, isFile_eq, h]
  | readsOf => simp only [perform, readsOf, h]

/-- What is there has an info, and the other way round. -/
theorem exists?_eq_isOk_info (store : FileStore) (p : Path) : store.exists? p = (store.info p).isOk := by
  simp only [exists?, info, Table.has]
  cases store.files.get? (store.locate p) with
  | some content => rfl
  | none => cases store.hasBelow (store.locate p) <;> rfl

namespace Recounts

variable {directory : Path} {calls : List StoreCall} {store : FileStore}

theorem has_iff (h : Recounts directory calls store) (q : Path) :
    store.files.has q = true ↔ Stands directory calls q := by
  rw [Table.has, h.files_eq, stands_iff]

/-- A read gives the content of a file that was last inserted. -/
theorem contentAt_eq_ok_iff (h : Recounts directory calls store) (p : Path) (content : ByteArray) :
    store.contentAt p = .ok content ↔
      lastChange? directory calls (directory.join p).clean = some (.insert content) := by
  unfold contentAt
  dsimp only
  rw [h.locate_eq, h.files_eq]
  have hmark := List.contains_iff_mem.trans (h.mem_unreadable_iff (directory.join p).clean)
  cases hm : store.unreadable.contains (directory.join p).clean with
  | true =>
    rw [hmark.mp hm]
    simp
  | false =>
    cases hlast : lastChange? directory calls (directory.join p).clean with
    | none => simp
    | some c => cases c with
      | insert last => simp [FileChange.content?]
      | insertUnreadable =>
        rw [hmark.mpr hlast] at hm
        cases hm
      | remove => simp [FileChange.content?]

/-- What is below a path are the files below it. -/
theorem hasBelow_iff (h : Recounts directory calls store) (p : Path) :
    store.hasBelow p = true ↔ ∃ q, q ≠ p ∧ q.isWithin p = true ∧ Stands directory calls q := by
  simp only [hasBelow, List.any_eq_true, Bool.and_eq_true, decide_eq_true_eq]
  constructor
  · rintro ⟨entry, hmem, hne, hin⟩
    exact ⟨entry.1, hne, hin, (h.has_iff _).mp (Table.has_eq_true_iff.mpr (List.mem_map_of_mem hmem))⟩
  · rintro ⟨q, hne, hin, hs⟩
    obtain ⟨entry, hmem, rfl⟩ := List.mem_map.mp (Table.has_eq_true_iff.mp ((h.has_iff q).mpr hs))
    exact ⟨entry, hmem, hne, hin⟩

/-- Something is at a path when a file stands there or below. -/
theorem exists?_iff (h : Recounts directory calls store) (p : Path) :
    store.exists? p = true ↔
      Stands directory calls (directory.join p).clean ∨
        ∃ q, q ≠ (directory.join p).clean ∧ q.isWithin (directory.join p).clean = true ∧ Stands directory calls q := by
  simp only [exists?, Bool.or_eq_true, h.locate_eq, h.has_iff, h.hasBelow_iff]

theorem isFile_iff (h : Recounts directory calls store) (p : Path) :
    store.isFile p = true ↔ Stands directory calls (directory.join p).clean := by
  rw [isFile_eq, ← Table.has, h.locate_eq, h.has_iff]

/-- Marked files are there. -/
theorem has_of_mem_unreadable (h : Recounts directory calls store) {q : Path} (hq : q ∈ store.unreadable) :
    store.files.has q = true :=
  (h.has_iff q).mpr ⟨_, (h.mem_unreadable_iff q).mp hq, by simp⟩

theorem readsOf_eq (h : Recounts directory calls store) (p : Path) :
    store.readsOf p = (readPlaces directory calls).count (directory.join p).clean := by
  rw [readsOf, h.locate_eq, h.readsByPath_eq]

/-- **All reads are reads of some place.** -/
theorem reads_eq_sum (h : Recounts directory calls store) (ha : directory.isAbsolute = true) :
    ∃ places : Finset Path, (∀ q, q ∈ places ↔ q.IsPlace ∧ store.readsOf q ≠ 0) ∧
      store.reads = ∑ q ∈ places, store.readsOf q := by
  have hreads : ∀ q : Path, q.IsPlace → store.readsOf q = (readPlaces directory calls).count q := by
    intro q hq
    rw [readsOf, store.locate_of_isPlace hq, h.readsByPath_eq]
  refine ⟨(readPlaces directory calls).toFinset, fun q => ?_, ?_⟩
  · rw [List.mem_toFinset, ← List.count_pos_iff, Nat.pos_iff_ne_zero]
    constructor
    · intro hne
      have hp := isPlace_of_mem_readPlaces ha (List.count_pos_iff.mp (Nat.pos_of_ne_zero hne))
      exact ⟨hp, (hreads q hp).trans_ne hne⟩
    · rintro ⟨hp, hne⟩
      exact (hreads q hp).symm.trans_ne hne
  · rw [h.reads_eq, ← List.sum_toFinset_count_eq_length]
    refine Finset.sum_congr rfl fun q hq => (hreads q ?_).symm
    exact isPlace_of_mem_readPlaces ha (List.mem_toFinset.mp hq)

end Recounts

end FileStore

/-- **A store in memory is a map of places with counters.** From an absolute directory on, after any calls with paths
in any spelling: paths that lead to one place cannot be told apart. A read gives the content of a file exactly when the
last change of the file was to insert this content. Files that are marked as unreadable are there. Something exists
exactly when it has an info, and this is when a file stands at the path or strictly below it; a path leads to a file
when one stands at the path itself. The count of a path is the number of its reads since the last reset, whether they
gave a content or not, and the count of all reads is the sum over all places. -/
theorem fileStore_recounts (directory : Path) (ha : directory.isAbsolute = true) (calls : List StoreCall) :
    let place : Path → Path := fun p => (directory.join p).clean
    let stands : Path → Prop := Stands directory calls
    let store := (FileStore.empty directory).run calls
    (∀ p q, place p = place q → ∀ op, store.perform p op = store.perform q op) ∧
      (∀ p content, (store.read p).1 = .ok content ↔
        lastChange? directory calls (place p) = some (.insert content)) ∧
      (∀ q ∈ store.unreadable, store.files.has q = true) ∧
      (∀ p, store.exists? p = (store.info p).isOk) ∧
      (∀ p, store.exists? p = true ↔
        stands (place p) ∨ ∃ q, q ≠ place p ∧ q.isWithin (place p) = true ∧ stands q) ∧
      (∀ p, store.isFile p = true ↔ stands (place p)) ∧
      (∀ p, store.readsOf p = (readPlaces directory calls).count (place p)) ∧
      store.reads = (readPlaces directory calls).length ∧
      ∃ places : Finset Path, (∀ q, q ∈ places ↔ q.IsPlace ∧ store.readsOf q ≠ 0) ∧
        store.reads = ∑ q ∈ places, store.readsOf q := by
  intro place stands store
  have h : FileStore.Recounts directory calls store := recounts_run ha calls
  refine ⟨fun p q hpq op => ?_, h.contentAt_eq_ok_iff, fun q => h.has_of_mem_unreadable, store.exists?_eq_isOk_info,
    h.exists?_iff, h.isFile_iff, h.readsOf_eq, h.reads_eq, h.reads_eq_sum ha⟩
  exact store.perform_congr (by rw [h.locate_eq, h.locate_eq]; exact hpq) op

/-- Calls that put a file below another file, and that read both and a file that is not there. -/
def nestedCalls : List StoreCall :=
  [.on ⟨"lib"⟩ (.change .insertUnreadable), .on ⟨"x/../lib//a.js"⟩ (.change (.insert "first".toUTF8)),
    .on ⟨"/app/lib/a.js"⟩ .read, .resetReads, .on ⟨"/app/./lib/a.js/"⟩ (.change (.insert "second".toUTF8)),
    .on ⟨"lib/a.js"⟩ .read, .on ⟨"../app/lib"⟩ .read, .on ⟨"lib/b.js"⟩ .read, .on ⟨"lib"⟩ (.change .remove)]

theorem fileStore_recounts_nested :
    let store := (FileStore.empty ⟨"/app/"⟩).run nestedCalls
    (store.read ⟨"lib/./a.js"⟩).1 = .ok "second".toUTF8 ∧ store.isFile ⟨"lib"⟩ = false ∧
      store.exists? ⟨"lib"⟩ = true ∧ store.readsOf ⟨"/app/lib"⟩ = 1 ∧ store.reads = 3 := by
  obtain ⟨-, hread, -, -, hexists, hfile, hcount, hreads, -⟩ := fileStore_recounts ⟨"/app/"⟩ (by decide) nestedCalls
  have hfirst : lastChange? ⟨"/app/"⟩ nestedCalls (Path.join ⟨"/app/"⟩ ⟨"lib/./a.js"⟩).clean =
      some (.insert "second".toUTF8) := rfl
  have hlib : lastChange? ⟨"/app/"⟩ nestedCalls (Path.join ⟨"/app/"⟩ ⟨"lib"⟩).clean = some .remove := rfl
  have hplaces : (Path.join ⟨"/app/"⟩ ⟨"lib/./a.js"⟩).clean ≠ (Path.join ⟨"/app/"⟩ ⟨"lib"⟩).clean ∧
      ((Path.join ⟨"/app/"⟩ ⟨"lib/./a.js"⟩).clean.isWithin (Path.join ⟨"/app/"⟩ ⟨"lib"⟩).clean) = true ∧
      (readPlaces ⟨"/app/"⟩ nestedCalls).count (Path.join ⟨"/app/"⟩ ⟨"/app/lib"⟩).clean = 1 ∧
      (readPlaces ⟨"/app/"⟩ nestedCalls).length = 3 := by decide +kernel
  obtain ⟨hne, hin, hone, hthree⟩ := hplaces
  have hstands : ¬ Stands ⟨"/app/"⟩ nestedCalls (Path.join ⟨"/app/"⟩ ⟨"lib"⟩).clean := by
    rintro ⟨c, hc, hkept⟩
    exact hkept (Option.some.inj (hc.symm.trans hlib))
  exact ⟨(hread _ _).mpr hfirst, Bool.eq_false_iff.mpr fun h => hstands ((hfile _).mp h),
    (hexists _).mpr (.inr ⟨_, hne, hin, _, hfirst, by simp⟩), (hcount _).trans hone, hreads.trans hthree⟩

end ModuleBundler
