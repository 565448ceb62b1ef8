import Callisto.Bus.Pruner
import Mathlib.Algebra.Order.BigOperators.Group.List
import Mathlib.Algebra.Order.Ring.Nat

/-! What the caps of the pruner do: the age cap of a topic, the size cap of a topic, and one round of the global cap. -/

namespace Callisto.Bus.Pruner

variable {cwd : List String} {today : ℤ} {disk : List StoredFile} {file : StoredFile} {dir : List String}

/-! ## Bytes -/

theorem bytes_cons (file : StoredFile) (files : List StoredFile) : bytes (file :: files) = file.size + bytes files := by
  unfold bytes
  rw [List.map_cons, List.sum_cons]

theorem bytes_perm {files others : List StoredFile} (same : files.Perm others) : bytes files = bytes others :=
  (same.map StoredFile.size).sum_eq

theorem bytes_le_of_sublist {files others : List StoredFile} (kept : files.Sublist others) : bytes files ≤ bytes others :=
  (kept.map StoredFile.size).sum_le_sum fun _ _ => Nat.zero_le _

theorem bytes_erase {files : List StoredFile} (member : file ∈ files) :
    bytes files = file.size + bytes (files.erase file) :=
  (bytes_perm (List.perm_cons_erase member)).trans (bytes_cons file _)

theorem bytes_eq_zero {files : List StoredFile} (none_ : bytes files = 0) : files = [] := by
  match files with
  | [] => rfl
  | file :: rest =>
    rw [bytes_cons] at none_
    have positive := file.nonempty
    omega

theorem topicDirSizeBytes_le {files others : List StoredFile} (kept : files.Sublist others) :
    topicDirSizeBytes dir files ≤ topicDirSizeBytes dir others :=
  bytes_le_of_sublist (kept.filter _)

theorem filter_erase_of_outside (chosen : StoredFile → Bool) (outside : chosen file = false) :
    (disk.erase file).filter chosen = disk.filter chosen := by
  rw [← List.erase_filter, List.erase_of_not_mem]
  intro member
  have inside := (List.mem_filter.mp member).2
  rw [outside] at inside
  contradiction

theorem bytes_filter_erase (chosen : StoredFile → Bool) (member : file ∈ disk)
    (inside : chosen file = true) : bytes (disk.filter chosen) = file.size + bytes ((disk.erase file).filter chosen) := by
  rw [← List.erase_filter]
  exact bytes_erase (List.mem_filter.mpr ⟨member, inside⟩)

/-! ## The files of a directory, oldest first -/

instance : Std.Total fun file other : StoredFile => file.mtime ≤ other.mtime := ⟨fun file other => le_total file.mtime other.mtime⟩

instance : IsTrans StoredFile fun file other => file.mtime ≤ other.mtime := ⟨fun _ _ _ => le_trans⟩

theorem listPartitionFiles_perm (dir : List String) (disk : List StoredFile) :
    (listPartitionFiles dir disk).Perm (disk.filter (·.under dir)) := List.perm_insertionSort _ _

theorem listPartitionFiles_sorted (dir : List String) (disk : List StoredFile) :
    (listPartitionFiles dir disk).Pairwise fun file other => file.mtime ≤ other.mtime := List.pairwise_insertionSort _ _

theorem bytes_listPartitionFiles (dir : List String) (disk : List StoredFile) :
    bytes (listPartitionFiles dir disk) = topicDirSizeBytes dir disk := bytes_perm (listPartitionFiles_perm dir disk)

structure Oldest (dir : List String) (disk : List StoredFile) (file : StoredFile) : Prop where
  member : file ∈ disk
  inside : file.under dir = true
  first : ∀ other ∈ disk, other.under dir = true → file.mtime ≤ other.mtime

theorem oldest_of_sorted {files : List StoredFile}
    (listed : (file :: files).Perm (disk.filter (·.under dir))) (sorted : (file :: files).Pairwise fun file other => file.mtime ≤ other.mtime) :
    Oldest dir disk file := by
  have member := List.mem_filter.mp (listed.subset List.mem_cons_self)
  have later := (List.pairwise_cons.mp sorted).1
  refine ⟨member.1, member.2, fun other otherMember inside => ?_⟩
  have listedOther := listed.symm.subset (List.mem_filter.mpr ⟨otherMember, inside⟩)
  cases List.mem_cons.mp listedOther with
  | inl same => rw [same]
  | inr rest => exact later other rest

theorem oldest_of_listed {files : List StoredFile}
    (listed : listPartitionFiles dir disk = file :: files) : Oldest dir disk file :=
  oldest_of_sorted (listed ▸ listPartitionFiles_perm dir disk) (listed ▸ listPartitionFiles_sorted dir disk)

/-! ## The age cap -/

namespace Pass

theorem isOlder_under {cutoff : ℤ} (older : file.isOlder dir cutoff = true) : file.under dir = true := by
  unfold StoredFile.isOlder StoredFile.dateDir at older
  split at older
  · assumption
  · contradiction

theorem isOlder_of_away {cutoff : ℤ} (away : file.under dir = false) :
    file.isOlder dir cutoff = false := by
  rw [Bool.eq_false_iff]
  intro older
  rw [isOlder_under older] at away
  contradiction

/-! ## The size cap of a topic -/

/-- A deletion by a size cap, of the oldest file of a directory that held more than the cap. -/
structure TopicDeletion (topic : Topic) (dir : List String) (maxBytes : ℕ) (deletion : Deletion) : Prop where
  cap : deletion.cap = .topic topic
  exceeds : maxBytes < topicDirSizeBytes dir deletion.before
  oldest : Oldest dir deletion.before deletion.file

structure PrunedFiles (topic : Topic) (dir : List String) (maxBytes : ℕ) (before after : Pass) : Prop where
  kept : after.disk.Sublist before.disk
  outside : ∀ file ∈ before.disk, file.under dir = false → file ∈ after.disk
  deletions : ∀ deletion ∈ after.deletions, deletion ∈ before.deletions ∨
    deletion.before.Sublist before.disk ∧ TopicDeletion topic dir maxBytes deletion

theorem PrunedFiles.refl (topic : Topic) (dir : List String) (maxBytes : ℕ) (pass : Pass) : PrunedFiles topic dir maxBytes pass pass :=
  ⟨List.Sublist.refl _, fun _ member _ => member, fun _ member => .inl member⟩

theorem PrunedFiles.trans {topic : Topic} {dir : List String} {maxBytes : ℕ} {first second third : Pass}
    (before : PrunedFiles topic dir maxBytes first second) (after : PrunedFiles topic dir maxBytes second third) :
    PrunedFiles topic dir maxBytes first third where
  kept := after.kept.trans before.kept
  outside file member away := after.outside file (before.outside file member away) away
  deletions deletion member := by
    cases after.deletions deletion member with
    | inl earlier => exact before.deletions deletion earlier
    | inr late => exact .inr ⟨late.1.trans before.kept, late.2⟩

theorem mem_erase_of_outside {file other : StoredFile} (inside : file.under dir = true)
    (member : other ∈ disk) (away : other.under dir = false) : other ∈ disk.erase file := by
  have different : other ≠ file := fun same => by
    rw [same, inside] at away
    contradiction
  exact (List.mem_erase_of_ne different).mpr member

theorem unlink_prunedFiles {topic : Topic} {dir : List String} {maxBytes : ℕ} {pass : Pass} {file : StoredFile}
    (exceeds : maxBytes < topicDirSizeBytes dir pass.disk) (oldest : Oldest dir pass.disk file) :
    PrunedFiles topic dir maxBytes pass (pass.unlink (.topic topic) file) where
  kept := List.erase_sublist
  outside _ member away := mem_erase_of_outside oldest.inside member away
  deletions deletion member := by
    cases List.mem_append.mp member with
    | inl earlier => exact .inl earlier
    | inr last =>
      rw [List.mem_singleton] at last
      rw [last]
      exact .inr ⟨List.Sublist.refl _, rfl, exceeds, oldest⟩

theorem pruneFiles_spec (topic : Topic) (dir : List String) (maxBytes : ℕ) (files : List StoredFile) (pass : Pass)
    (listed : files.Perm (pass.disk.filter (·.under dir))) (sorted : files.Pairwise fun file other => file.mtime ≤ other.mtime) :
    PrunedFiles topic dir maxBytes pass (pruneFiles (.topic topic) maxBytes (bytes files) files pass) ∧
      topicDirSizeBytes dir (pruneFiles (.topic topic) maxBytes (bytes files) files pass).disk ≤ maxBytes := by
  induction files generalizing pass with
  | nil =>
    have empty : topicDirSizeBytes dir pass.disk = 0 := (bytes_perm listed).symm
    exact ⟨PrunedFiles.refl topic dir maxBytes pass, empty.trans_le (Nat.zero_le _)⟩
  | cons file files ih =>
    have total : bytes (file :: files) = topicDirSizeBytes dir pass.disk := bytes_perm listed
    unfold pruneFiles
    split
    · next within => exact ⟨PrunedFiles.refl topic dir maxBytes pass, total ▸ within⟩
    · next exceeds =>
      have oldest := oldest_of_sorted listed sorted
      have left : bytes (file :: files) - file.size = bytes files := by
        rw [bytes_cons]
        omega
      have listedRest : files.Perm ((pass.unlink (.topic topic) file).disk.filter (·.under dir)) :=
        ((List.cons_perm_iff_perm_erase.mp listed).2).trans (List.Perm.of_eq List.erase_filter)
      have rest := ih (pass.unlink (.topic topic) file) listedRest (List.pairwise_cons.mp sorted).2
      rw [left]
      have removed : PrunedFiles topic dir maxBytes pass (pass.unlink (.topic topic) file) := unlink_prunedFiles (by omega) oldest
      exact ⟨removed.trans rest.1, rest.2⟩

/-- The files that have to go, oldest first, for the rest to fit. -/
def exceeding (maxBytes : ℕ) : List StoredFile → List StoredFile
  | [] => []
  | file :: files => if bytes (file :: files) ≤ maxBytes then [] else file :: exceeding maxBytes files

theorem disk_pruneFiles (cap : Cap) (maxBytes : ℕ) (files : List StoredFile) (pass : Pass) :
    (pruneFiles cap maxBytes (bytes files) files pass).disk = pass.disk.diff (exceeding maxBytes files) := by
  induction files generalizing pass with
  | nil => rfl
  | cons file files ih =>
    unfold pruneFiles exceeding
    split
    · rfl
    · have left : bytes (file :: files) - file.size = bytes files := by
        rw [bytes_cons, Nat.add_sub_cancel_left]
      rw [left, ih, List.diff_cons]
      rfl

theorem pruneTopicSize_spec (pass : Pass) (topic : Topic) (dir : List String) (maxBytes : ℕ) :
    PrunedFiles topic dir maxBytes pass (pass.pruneTopicSize topic dir maxBytes) ∧
      topicDirSizeBytes dir (pass.pruneTopicSize topic dir maxBytes).disk ≤ maxBytes :=
  pruneFiles_spec topic dir maxBytes _ pass (listPartitionFiles_perm dir pass.disk) (listPartitionFiles_sorted dir pass.disk)

end Pass

end Callisto.Bus.Pruner
