/-
  What writes do to the sizes of rows and of pages.

  A mark takes eight bytes more than none: deleting a row makes it larger unless the version it
  marks had a mark, and a rollback sets marks and takes marks off.
-/
import AntDb.Lib.Totals
import AntDb.Packing

namespace AntDb

namespace InternalRow

variable {v : InternalRow} {txn : Transaction}

/-- The bytes of a version in its row. -/
def sizeBytes (v : InternalRow) : ℕ :=
  8 + (if v.deletedBy.isSome then 9 else 1) + 8 + (v.data.toList.map fun x => 2 + x.2.size).sum

/-- A rollback of `txn` marks the version. -/
def GetsMark (v : InternalRow) (txn : Transaction) : Prop :=
  v.createdBy = txn.transactionId ∧ v.deletedBy = none

/-- A rollback of `txn` takes the mark of the version off. -/
def LosesMark (v : InternalRow) (txn : Transaction) : Prop :=
  v.createdBy ≠ txn.transactionId ∧ v.deletedBy = some txn.transactionId

instance : Decidable (v.GetsMark txn) := inferInstanceAs (Decidable (_ ∧ _))

instance : Decidable (v.LosesMark txn) := inferInstanceAs (Decidable (_ ∧ _))

/-- Marking a marked version does not change its size. -/
theorem sizeBytes_mark (h : v.deletedBy ≠ none) : (v.mark txn).sizeBytes = v.sizeBytes := by
  obtain ⟨d, hd⟩ := Option.ne_none_iff_exists'.1 h
  rw [sizeBytes, sizeBytes, mark_deletedBy, mark_data, hd]
  rfl

theorem sizeBytes_rollback : (v.rollback txn).sizeBytes + (if v.LosesMark txn then 8 else 0) =
    v.sizeBytes + if v.GetsMark txn then 8 else 0 := by
  rw [sizeBytes, sizeBytes, rollback_data, rollback_deletedBy]
  unfold LosesMark GetsMark
  by_cases hc : v.createdBy = txn.transactionId <;>
    obtain hd | ⟨d, hd⟩ := Option.eq_none_or_eq_some v.deletedBy
  · simp [hc, hd]
    omega
  · simp [hc, hd]
  · simp [hc, hd]
  · by_cases he : d = txn.transactionId
    · simp [hc, hd, he]
      omega
    · simp [hc, hd, he]

end InternalRow

namespace Row

open LastMatch

variable {row : Row} {txn : Transaction} {oldest : TransactionID}

theorem sizeBytes_eq : row.sizeBytes = 8 + (row.versions.map (·.sizeBytes)).sum := rfl

/-- The versions a rollback of `txn` marks. -/
def marksSet (row : Row) (txn : Transaction) : ℕ := row.versions.countP (·.GetsMark txn)

/-- The versions whose mark a rollback of `txn` takes off. -/
def marksTaken (row : Row) (txn : Transaction) : ℕ := row.versions.countP (·.LosesMark txn)

/-- Deleting a row whose visible version is marked does not change its size. -/
theorem sizeBytes_remove (h : ∀ v, row.getVersionedRow txn = some v → v.deletedBy ≠ none) :
    (row.remove txn).sizeBytes = row.sizeBytes := by
  rw [sizeBytes_eq, sizeBytes_eq, remove]
  rcases LastMatch.cases (·.isVisible txn) row.versions with hnone | ⟨pre, v, post, hlast⟩
  · rw [updateLast_none hnone]
  · have hmark := @InternalRow.sizeBytes_mark v txn (h v hlast.findLast)
    rw [hlast.updateLast]
    conv_rhs => rw [hlast.eq]
    simp only [List.map_append, List.map_cons, hmark]

theorem sizeBytes_rollback : (row.rollbackTransaction txn).sizeBytes + 8 * row.marksTaken txn =
    row.sizeBytes + 8 * row.marksSet txn := by
  rw [sizeBytes_eq, sizeBytes_eq, rollbackTransaction, marksTaken, marksSet, List.map_map]
  induction row.versions with
  | nil => rfl
  | cons v versions ih =>
    have hv := @InternalRow.sizeBytes_rollback v txn
    simp only [List.map_cons, List.sum_cons, List.countP_cons, Function.comp_apply, decide_eq_true_eq]
    split_ifs at hv ⊢ <;> omega

/-- A pruned row is not larger. -/
theorem sizeBytes_prune_le : (row.prune oldest).sizeBytes ≤ row.sizeBytes := by
  rw [sizeBytes_eq, sizeBytes_eq]
  exact Nat.add_le_add_left
    ((List.filter_sublist.map InternalRow.sizeBytes).sum_le_sum fun _ _ => Nat.zero_le _) 8

end Row

namespace Page

variable {page : Page} {r : RowID} {row : Row} {txn : Transaction} {oldest : TransactionID}

theorem rowBytes_eq : page.rowBytes = BTreeMap.total Row.sizeBytes page.rows := rfl

/-- The bytes of a page apart from its rows. -/
def headerBytes (page : Page) : ℕ := if page.nextPage.isSome then 43 else 35

theorem memoryBytes_eq : page.memoryBytes =
    page.headerBytes + BTreeMap.total (fun row => 8 + row.sizeBytes) page.rows := by
  rw [memoryBytes, headerBytes, BTreeMap.total]
  split_ifs <;> omega

/-- The marks a rollback of `txn` sets on the page. -/
def marksSet (page : Page) (txn : Transaction) : ℕ := BTreeMap.total (·.marksSet txn) page.rows

def marksTaken (page : Page) (txn : Transaction) : ℕ := BTreeMap.total (·.marksTaken txn) page.rows

/-- The page with its rows rolled back. -/
def rolledBack (page : Page) (txn : Transaction) : Page :=
  { page with rows := page.rows.map fun _ row => row.rollbackTransaction txn }

theorem rowBytes_rolledBack : (page.rolledBack txn).rowBytes + 8 * page.marksTaken txn =
    page.rowBytes + 8 * page.marksSet txn := by
  rw [rowBytes_eq, rowBytes_eq, rolledBack, BTreeMap.total_map, marksTaken, marksSet,
    ← BTreeMap.total_mul, ← BTreeMap.total_mul, ← BTreeMap.total_add, ← BTreeMap.total_add]
  exact BTreeMap.total_congr fun _ row _ => row.sizeBytes_rollback

theorem memoryBytes_of_rowBytes {page' : Page} (hnext : page'.nextPage = page.nextPage)
    (hlen : page'.rows.toList.length = page.rows.toList.length) :
    page'.memoryBytes + page.rowBytes = page.memoryBytes + page'.rowBytes := by
  have hconst : ∀ rows : BTreeMap RowID Row, BTreeMap.total (fun row => 8 + row.sizeBytes) rows =
      rows.toList.length * 8 + BTreeMap.total Row.sizeBytes rows := fun rows => by
    rw [BTreeMap.total_add]
    congr 1
    rw [BTreeMap.total, List.map_const', List.sum_replicate, smul_eq_mul]
  rw [memoryBytes_eq, memoryBytes_eq, rowBytes_eq, rowBytes_eq, headerBytes, headerBytes, hconst, hconst,
    hnext, hlen]
  omega

theorem memoryBytes_rolledBack : (page.rolledBack txn).memoryBytes + 8 * page.marksTaken txn =
    page.memoryBytes + 8 * page.marksSet txn := by
  have hmemory := @memoryBytes_of_rowBytes page (page.rolledBack txn) rfl (by
    rw [rolledBack, Std.ExtTreeMap.toList_map, List.length_map])
  have hrows := @rowBytes_rolledBack page txn
  omega

/-- A row that is rewritten and keeps its size. -/
theorem rowBytes_modify {g : Row → Row} (hrow : page.rows[r]? = some row)
    (h : (g row).sizeBytes = row.sizeBytes) :
    ({ page with rows := page.rows.modify r g, isDirty := true } : Page).rowBytes = page.rowBytes := by
  have htotal := BTreeMap.total_modify (w := Row.sizeBytes) (f := g) hrow
  rw [h, Nat.add_right_cancel_iff] at htotal
  exact htotal

theorem memoryBytes_modify {g : Row → Row} (hrow : page.rows[r]? = some row)
    (h : (g row).sizeBytes = row.sizeBytes) :
    ({ page with rows := page.rows.modify r g, isDirty := true } : Page).memoryBytes = page.memoryBytes := by
  have htotal := BTreeMap.total_modify (w := fun row => 8 + row.sizeBytes) (f := g) hrow
  rw [h, Nat.add_right_cancel_iff] at htotal
  rw [memoryBytes_eq, memoryBytes_eq, headerBytes, headerBytes]
  exact congrArg _ htotal

/-- A page is not larger after its rows have been pruned. -/
theorem memoryBytes_pruned_le :
    ({ page with rows := Table.pruneRows oldest page.rows } : Page).memoryBytes ≤ page.memoryBytes := by
  rw [memoryBytes_eq, memoryBytes_eq, headerBytes, headerBytes]
  refine Nat.add_le_add_left (BTreeMap.total_filterMap_le fun row row' hrow => ?_) _
  split_ifs at hrow
  obtain rfl := Option.some.inj hrow
  exact Nat.add_le_add_left Row.sizeBytes_prune_le 8

end Page

end AntDb
