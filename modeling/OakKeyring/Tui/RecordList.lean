import OakKeyring.Types.Listing

/-!
# The record list of the main screen

The screen shows the pages that it has loaded, one after another. A request carries its filter and
its offset; the reply carries neither, and is put where `pending_load_offset` says.
-/

namespace OakKeyring

def DEFAULT_RECORD_LIST_PAGE_SIZE : Nat := 500

/-- `Command::LoadRecordList` -/
structure LoadRecordList where
  filter : RecordFilter
  sort : RecordSort
  limit : Nat
  offset : Nat
deriving DecidableEq, Repr

/-- The results that the list of the main screen answers to. -/
inductive ListResult
  | RecordListLoaded (records : List TuiRecord) (total : Nat)
  | Error
  | HealthCheckCompleted
  | RecordCreated
  | RecordUpdated
  | RecordDeleted (id : Uuid)
  | RecordRestored (id : Uuid)
  | RecordDestroyed (id : Uuid)
  | TagRenamed
  | TagDeleted
  | BatchTagAdded
  | BatchTagRemoved
  | BatchDeleted
  | BatchRestored
  | BatchDestroyed
  | TrashEmptied
deriving DecidableEq, Repr

/-- The results that say that the records may have changed; the others answer a request. -/
def ListResult.Changes : ListResult → Prop
  | RecordListLoaded _ _ => False
  | Error => False
  | _ => True

instance : DecidablePred ListResult.Changes
  | .RecordListLoaded _ _ => .isFalse id
  | .Error => .isFalse id
  | .HealthCheckCompleted | .RecordCreated | .RecordUpdated => .isTrue trivial
  | .RecordDeleted _ | .RecordRestored _ | .RecordDestroyed _ => .isTrue trivial
  | .TagRenamed | .TagDeleted | .BatchTagAdded | .BatchTagRemoved => .isTrue trivial
  | .BatchDeleted | .BatchRestored | .BatchDestroyed | .TrashEmptied => .isTrue trivial

structure ListPanelState where
  records : List TuiRecord
  selectedIndex : Option Nat
  /-- the ids selected in visual mode -/
  visual : Option (List Uuid)
  totalCount : Nat
  pendingLoadOffset : Option Nat
  visibleHeight : Nat
deriving DecidableEq, Repr

namespace ListPanelState

variable (list : ListPanelState)

def selectedId : Option Uuid :=
  (list.selectedIndex.bind fun index => list.records[index]?).map TuiRecord.id

def moveDown : ListPanelState :=
  if list.records = [] then list
  else
    { list with
      selectedIndex :=
        some (min (list.selectedIndex.getD 0 + 1) (list.records.length - 1)) }

def moveUp : ListPanelState :=
  if list.records = [] then list
  else { list with selectedIndex := some (list.selectedIndex.getD 0 - 1) }

def visibleItemsCount : Nat :=
  if 0 < list.visibleHeight then list.visibleHeight else 8

/-- `records.retain(..)` -/
def without (ids : List Uuid) : ListPanelState :=
  { list with records := list.records.filter fun record => record.id ∉ ids }

def cleanupAfterBatch (removedIds : List Uuid) : ListPanelState :=
  let records := list.records.filter fun record => record.id ∉ removedIds
  { list with
    records := records
    totalCount := list.totalCount - removedIds.length
    selectedIndex :=
      if records = [] then none
      else list.selectedIndex.map fun index =>
        if records.length ≤ index then records.length - 1 else index
    visual := none }

end ListPanelState

structure MainScreenState where
  list : ListPanelState
  currentFilter : RecordFilter
  currentSort : RecordSort
  listAutoSelect : Bool
  batchTagPanelOpen : Bool
deriving DecidableEq, Repr

namespace MainScreenState

variable (m : MainScreenState)

def loadRecordListCommand (offset : Nat) : MainScreenState × LoadRecordList :=
  ({ m with list := { m.list with pendingLoadOffset := some offset } },
    { filter := m.currentFilter
      sort := m.currentSort
      limit := DEFAULT_RECORD_LIST_PAGE_SIZE
      offset := offset })

def reloadRecordListCommand : MainScreenState × LoadRecordList :=
  m.loadRecordListCommand 0

def maybeLoadMoreRecordsCommand : Option (MainScreenState × LoadRecordList) :=
  if m.list.pendingLoadOffset.isSome ∨ m.list.totalCount ≤ m.list.records.length ∨
      m.list.records = [] then none
  else
    match m.list.selectedIndex with
    | none => none
    | some selected =>
        if m.list.records.length - (selected + 1) ≤ max m.list.visibleItemsCount 1 then
          some (m.loadRecordListCommand m.list.records.length)
        else none

/-- A page behind the first; records that are shown already are passed over. -/
def appended (records : List TuiRecord) (total : Nat) : MainScreenState :=
  let existing := m.list.records.map TuiRecord.id
  { m with
    list :=
      { m.list with
        records := m.list.records ++ records.filter fun record => record.id ∉ existing
        totalCount := total
        pendingLoadOffset := none } }

/-- The first page; the selection stays with its record. -/
def replaced (records : List TuiRecord) (total : Nat) : MainScreenState :=
  let selectedIndex :=
    if m.listAutoSelect ∧ records ≠ [] then some 0
    else if records = [] then none
    else m.list.selectedId.map fun id =>
      ((records.map TuiRecord.id).findIdx? fun other => other = id).getD 0
  { m with
    list :=
      { m.list with
        records := records
        selectedIndex := selectedIndex
        totalCount := total
        pendingLoadOffset := none }
    listAutoSelect := false }

def recordListLoaded (records : List TuiRecord) (total : Nat) : MainScreenState :=
  let loadedOffset := m.list.pendingLoadOffset.getD 0
  if 0 < loadedOffset then m.appended records total else m.replaced records total

/-- Visual mode ends with a batch, unless its panel is still open. -/
def exitVisualAfterTags : MainScreenState :=
  if m.batchTagPanelOpen then m else { m with list := { m.list with visual := none } }

/-- What the screen makes of a result before it asks for the list again. -/
def beforeReload (result : ListResult) : MainScreenState :=
  match result with
  | .RecordCreated => { m with listAutoSelect := true }
  | .RecordDeleted id => { m with list := (m.list.without [id]).cleanupAfterBatch [id] }
  | .RecordRestored id => { m with list := m.list.without [id] }
  | .RecordDestroyed id => { m with list := m.list.without [id] }
  | .BatchTagAdded => m.exitVisualAfterTags
  | .BatchTagRemoved => m.exitVisualAfterTags
  | .BatchDeleted | .BatchRestored | .BatchDestroyed =>
      { m with list := m.list.cleanupAfterBatch (m.list.visual.getD []) }
  | .TrashEmptied => { m with list := { m.list with records := [], selectedIndex := none } }
  | _ => m

/-- `update` for the results that concern the list. -/
def update (result : ListResult) : MainScreenState × Option LoadRecordList :=
  match result with
  | .RecordListLoaded records total => (m.recordListLoaded records total, none)
  | .Error => (m, none)
  | _ =>
      let (next, command) := (m.beforeReload result).reloadRecordListCommand
      (next, some command)

def select (index : Nat) : MainScreenState :=
  { m with list := { m.list with selectedIndex := some index } }

/-- What the user does to the list. -/
inductive Input
  /-- a category or a tag of the sidebar; leaving visual mode is an input of its own -/
  | filter (filter : RecordFilter)
  | sort (sort : RecordSort)
  | down
  | up
  | scrollDown
  | scrollUp
  | click (index : Nat)
  | visual (ids : Option (List Uuid))
  | batchTagPanel (isOpen : Bool)

def withMore (next : MainScreenState) : MainScreenState × Option LoadRecordList :=
  match next.maybeLoadMoreRecordsCommand with
  | some (loading, command) => (loading, some command)
  | none => (next, none)

/-- `handle_key` and `handle_mouse` -/
def handleInput (input : Input) : MainScreenState × Option LoadRecordList :=
  match input with
  | .filter filter =>
      if filter = m.currentFilter then (m, none)
      else
        let (next, command) := reloadRecordListCommand
          { m with
            currentFilter := filter
            listAutoSelect := true }
        (next, some command)
  | .sort sort =>
      let (next, command) := { m with currentSort := sort }.reloadRecordListCommand
      (next, some command)
  | .down =>
      let moved := { m with list := m.list.moveDown }
      -- in visual mode the keys move the selection and nothing else
      if m.list.visual.isSome then (moved, none) else withMore moved
  | .up => ({ m with list := m.list.moveUp }, none)
  | .scrollDown => withMore { m with list := m.list.moveDown.moveDown.moveDown }
  | .scrollUp => ({ m with list := m.list.moveUp.moveUp.moveUp }, none)
  | .click index =>
      if index < m.list.records.length then (m.select index, none) else (m, none)
  | .visual ids => ({ m with list := { m.list with visual := ids } }, none)
  | .batchTagPanel isOpen => ({ m with batchTagPanelOpen := isOpen }, none)

/-! ## The end of the list -/

/-- Two screens that show and await the same. -/
structure SameList (m m' : MainScreenState) : Prop where
  records : m'.list.records = m.list.records
  totalCount : m'.list.totalCount = m.list.totalCount
  pending : m'.list.pendingLoadOffset = m.list.pendingLoadOffset
  filter : m'.currentFilter = m.currentFilter
  sort : m'.currentSort = m.currentSort

/-- What an input can do: move the selection, reload the list, or load more of it. -/
inductive Handled (m : MainScreenState) : MainScreenState × Option LoadRecordList → Prop
  | moved (next : MainScreenState) (hsame : SameList m next) : Handled m (next, none)
  | reloaded (before : MainScreenState) :
      Handled m (before.reloadRecordListCommand.1, some before.reloadRecordListCommand.2)
  | more (moved : MainScreenState) (hsame : SameList m moved)
      (hpending : m.list.pendingLoadOffset = none)
      (hproper : m.list.records.length < m.list.totalCount) (hrecords : m.list.records ≠ []) :
      Handled m ((moved.loadRecordListCommand m.list.records.length).1,
        some (moved.loadRecordListCommand m.list.records.length).2)

variable {m}

theorem SameList.moveDown {list : ListPanelState} (h : SameList m { m with list := list }) :
    SameList m { m with list := list.moveDown } := by
  unfold ListPanelState.moveDown
  by_cases hempty : list.records = []
  · rw [if_pos hempty]
    exact h
  · rw [if_neg hempty]
    exact ⟨h.records, h.totalCount, h.pending, rfl, rfl⟩

theorem SameList.moveUp {list : ListPanelState} (h : SameList m { m with list := list }) :
    SameList m { m with list := list.moveUp } := by
  unfold ListPanelState.moveUp
  by_cases hempty : list.records = []
  · rw [if_pos hempty]
    exact h
  · rw [if_neg hempty]
    exact ⟨h.records, h.totalCount, h.pending, rfl, rfl⟩

theorem SameList.refl (m : MainScreenState) : SameList m m :=
  ⟨rfl, rfl, rfl, rfl, rfl⟩

/-- More is loaded only while nothing is awaited and the list is a proper, nonempty part. -/
theorem maybeLoadMore_some {next : MainScreenState × LoadRecordList}
    (h : m.maybeLoadMoreRecordsCommand = some next) :
    m.list.pendingLoadOffset = none ∧ m.list.records.length < m.list.totalCount ∧
      m.list.records ≠ [] ∧ next = m.loadRecordListCommand m.list.records.length := by
  unfold maybeLoadMoreRecordsCommand at h
  split at h
  · cases h
  · rename_i hopen
    rw [not_or, not_or] at hopen
    rcases hopen with ⟨hpending, htotal, hrecords⟩
    have hnone : m.list.pendingLoadOffset = none := by simpa using hpending
    cases hselected : m.list.selectedIndex with
    | none =>
        rw [hselected] at h
        cases h
    | some selected =>
        simp only [hselected] at h
        split at h
        · exact ⟨hnone, Nat.lt_of_not_le htotal, hrecords, (Option.some.inj h).symm⟩
        · cases h

theorem withMore_handled {moved : MainScreenState} (hsame : SameList m moved) :
    Handled m (withMore moved) := by
  unfold withMore
  cases hmore : moved.maybeLoadMoreRecordsCommand with
  | none => exact .moved moved hsame
  | some next =>
      rcases maybeLoadMore_some hmore with ⟨hpending, hproper, hrecords, hnext⟩
      rw [hsame.pending] at hpending
      rw [hsame.records] at hproper hrecords hnext
      rw [hsame.totalCount] at hproper
      rw [hnext]
      exact .more moved hsame hpending hproper hrecords

theorem handleInput_handled (m : MainScreenState) (input : Input) :
    Handled m (m.handleInput input) := by
  have hlist : SameList m { m with list := m.list } := .refl m
  cases input with
  | filter filter =>
      simp only [handleInput]
      split
      · exact .moved m (.refl m)
      · exact .reloaded _
  | sort sort => exact .reloaded { m with currentSort := sort }
  | down =>
      simp only [handleInput]
      split
      · exact .moved _ hlist.moveDown
      · exact withMore_handled hlist.moveDown
  | up => exact .moved _ hlist.moveUp
  | scrollDown => exact withMore_handled hlist.moveDown.moveDown.moveDown
  | scrollUp => exact .moved _ hlist.moveUp.moveUp.moveUp
  | click index =>
      simp only [handleInput]
      split
      · exact .moved _ ⟨rfl, rfl, rfl, rfl, rfl⟩
      · exact .moved m (.refl m)
  | visual ids => exact .moved _ ⟨rfl, rfl, rfl, rfl, rfl⟩
  | batchTagPanel isOpen => exact .moved _ ⟨rfl, rfl, rfl, rfl, rfl⟩

/-- A result that tells of a change makes the screen reload, whatever else it does. -/
theorem update_changes {result : ListResult} (h : result.Changes) :
    m.update result = ((m.beforeReload result).reloadRecordListCommand.1,
      some (m.beforeReload result).reloadRecordListCommand.2) := by
  cases result with
  | RecordListLoaded records total => exact h.elim
  | Error => exact h.elim
  | _ => rfl

theorem recordListLoaded_more {records : List TuiRecord} {total : Nat}
    (h : 0 < m.list.pendingLoadOffset.getD 0) :
    m.recordListLoaded records total = m.appended records total :=
  if_pos h

theorem recordListLoaded_first {records : List TuiRecord} {total : Nat}
    (h : m.list.pendingLoadOffset.getD 0 = 0) :
    m.recordListLoaded records total = m.replaced records total := by
  apply if_neg
  rw [h]
  exact Nat.lt_irrefl 0

/-- An answer is taken in without a request, and at most ends the waiting. -/
theorem update_answer {result : ListResult} (h : ¬ result.Changes) :
    (m.update result).2 = none ∧ (m.update result).1.currentFilter = m.currentFilter ∧
      (m.update result).1.currentSort = m.currentSort ∧
      ((m.update result).1.list.pendingLoadOffset = none ∨
        (m.update result).1.list.pendingLoadOffset = m.list.pendingLoadOffset) := by
  cases result with
  | RecordListLoaded records total =>
      have hloaded : (m.update (.RecordListLoaded records total)).1 =
          m.recordListLoaded records total := rfl
      refine ⟨rfl, ?_⟩
      rw [hloaded]
      by_cases hoffset : 0 < m.list.pendingLoadOffset.getD 0
      · rw [recordListLoaded_more hoffset]
        exact ⟨rfl, rfl, Or.inl rfl⟩
      · rw [recordListLoaded_first (Nat.eq_zero_of_not_pos hoffset)]
        exact ⟨rfl, rfl, Or.inl rfl⟩
  | Error => exact ⟨rfl, rfl, rfl, Or.inr rfl⟩
  | _ => exact absurd trivial h

end MainScreenState

end OakKeyring
