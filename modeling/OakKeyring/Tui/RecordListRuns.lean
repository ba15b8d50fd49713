import OakKeyring.Lib.Transition
import OakKeyring.Tui.RecordList
import Mathlib.Data.List.Nodup
import Mathlib.Data.List.FinRange

/-!
# Screen and executor

The screen and the executor are joined by two queues. The list is complete when nothing is under
way, provided that since the last reload no load failed without a later one behind it, and none was
asked for behind another.
-/

namespace OakKeyring

open Transition

/-- What an executor lists: rows with distinct ids for every filter and order. -/
class RecordListing (E : Type) where
  rows : E → RecordFilter → RecordSort → List TuiRecord
  distinct : ∀ e filter sort, ((rows e filter sort).map TuiRecord.id).Nodup

/-- Both parties, and what is under way between them, in order. -/
structure PagedList (E : Type) where
  screen : MainScreenState
  requests : List LoadRecordList
  replies : List ListResult
  executor : E

inductive ListLabel (E : Type)
  | input (input : MainScreenState.Input)
  /-- the executor answers a request -/
  | served
  /-- the executor fails to answer a request -/
  | failed
  /-- the executor finishes another command, or a check of its own -/
  | changed (result : ListResult) (executor : E)
  | received

namespace PagedList

variable {E : Type}

/-- `on_mount`, of a screen in any state. -/
def mounted (m : MainScreenState) (e : E) : PagedList E where
  screen := m.reloadRecordListCommand.1
  requests := [m.reloadRecordListCommand.2]
  replies := []
  executor := e

def sent (s : PagedList E) (next : MainScreenState × Option LoadRecordList)
    (replies : List ListResult) : PagedList E :=
  { s with
    screen := next.1
    requests := s.requests ++ next.2.toList
    replies := replies }

variable [RecordListing E]

def answer (e : E) (request : LoadRecordList) : ListResult :=
  let rows := RecordListing.rows e request.filter request.sort
  .RecordListLoaded ((rows.drop request.offset).take request.limit) rows.length

/-- The listing that the screen should show. -/
def listing (s : PagedList E) : List TuiRecord :=
  RecordListing.rows s.executor s.screen.currentFilter s.screen.currentSort

end PagedList

inductive listStep {E : Type} [RecordListing E] :
    PagedList E → ListLabel E → PagedList E → Prop
  | input (s : PagedList E) (input : MainScreenState.Input) :
      listStep s (.input input) (s.sent (s.screen.handleInput input) s.replies)
  | served (s : PagedList E) (request : LoadRecordList) (rest : List LoadRecordList)
      (h : s.requests = request :: rest) :
      listStep s .served
        { s with
          requests := rest
          replies := s.replies ++ [PagedList.answer s.executor request] }
  | failed (s : PagedList E) (request : LoadRecordList) (rest : List LoadRecordList)
      (h : s.requests = request :: rest) :
      listStep s .failed
        { s with
          requests := rest
          replies := s.replies ++ [.Error] }
  | changed (s : PagedList E) (result : ListResult) (e : E) (h : result.Changes) :
      listStep s (.changed result e)
        { s with
          replies := s.replies ++ [result]
          executor := e }
  | received (s : PagedList E) (result : ListResult) (rest : List ListResult)
      (h : s.replies = result :: rest) :
      listStep s .received (s.sent (s.screen.update result) rest)

/-! ## What the list should be -/

namespace PagedList

variable {E : Type}

/-- Nothing is under way. -/
def Quiet (s : PagedList E) : Prop :=
  s.requests = [] ∧ s.replies = []

/-- The request for the page behind what is shown. -/
def more (s : PagedList E) : LoadRecordList :=
  (s.screen.loadRecordListCommand s.screen.list.records.length).2

end PagedList

section Conditions

variable {E : Type}

/-- A step that asks for more of the list. -/
def LoadsMore (e : Step (PagedList E) (ListLabel E)) : Prop :=
  ∃ request, e.target.requests = e.source.requests ++ [request] ∧ 0 < request.offset

/-- A load fails only with a reload behind it, and more is asked for only while nothing is under
way. -/
structure ListSafe (e : Step (PagedList E) (ListLabel E)) : Prop where
  failures : e.label = .failed → ∃ request ∈ e.source.requests.tail, request.offset = 0
  loads : LoadsMore e → e.source.Quiet

end Conditions

/-! ## The invariant -/

namespace PagedList

variable {E : Type} [RecordListing E]

/-- The request that a reload makes. -/
def reload (s : PagedList E) : LoadRecordList :=
  s.screen.reloadRecordListCommand.2

/-- A change is under way to the screen, which will reload. -/
def ChangeDue (s : PagedList E) : Prop :=
  ∃ result ∈ s.replies, result.Changes

/-- A reload is the last request, and an answer is taken as the first page. -/
structure Reloading (s : PagedList E) : Prop where
  first : s.screen.list.pendingLoadOffset.getD 0 = 0
  last : ∃ before, s.requests = before ++ [s.reload]

/-- The answer to a reload is the last reply. -/
structure Reloaded (s : PagedList E) : Prop where
  first : s.screen.list.pendingLoadOffset.getD 0 = 0
  served : s.requests = []
  last : ∃ before, s.replies = before ++ [answer s.executor s.reload]

/-- At most one request for more is under way. -/
inductive MoreUnderWay (s : PagedList E) : Prop
  | quiet (hpending : s.screen.list.pendingLoadOffset = none) (hquiet : s.Quiet)
  | requested (hpending : s.screen.list.pendingLoadOffset = some s.screen.list.records.length)
      (hrecords : s.screen.list.records ≠ []) (hrequests : s.requests = [s.more])
      (hreplies : s.replies = [])
  | answered (hpending : s.screen.list.pendingLoadOffset = some s.screen.list.records.length)
      (hrecords : s.screen.list.records ≠ []) (hrequests : s.requests = [])
      (hreplies : s.replies = [answer s.executor s.more])

/-- The list shows a beginning of the listing. -/
structure Shown (s : PagedList E) : Prop where
  shown : s.screen.list.records <+: s.listing
  total : s.screen.list.totalCount = s.listing.length
  begun : s.listing ≠ [] → s.screen.list.records ≠ []
  underWay : MoreUnderWay s

inductive ListInv (s : PagedList E) : Prop
  | changeDue (h : ChangeDue s)
  | reloading (h : Reloading s)
  | reloaded (h : Reloaded s)
  | shown (h : Shown s)

variable {s s' : PagedList E}

omit [RecordListing E] in
/-- Whatever was under way, a reload is then the last request. -/
theorem reloading_sent (s : PagedList E) (before : MainScreenState) (replies : List ListResult) :
    Reloading (s.sent (before.reloadRecordListCommand.1, some before.reloadRecordListCommand.2)
      replies) where
  first := rfl
  last := ⟨s.requests, rfl⟩

/-- A move of the selection leaves the list as it is. -/
theorem ListInv.of_same {next : MainScreenState} (h : ListInv s)
    (hsame : MainScreenState.SameList s.screen next) :
    ListInv (s.sent (next, none) s.replies) := by
  have hrequests : (s.sent (next, none) s.replies).requests = s.requests :=
    List.append_nil s.requests
  have hreload : (s.sent (next, none) s.replies).reload = s.reload := by
    simp [reload, sent, MainScreenState.reloadRecordListCommand,
      MainScreenState.loadRecordListCommand, hsame.filter, hsame.sort]
  have hmore : (s.sent (next, none) s.replies).more = s.more := by
    simp [more, sent, MainScreenState.loadRecordListCommand, hsame.filter, hsame.sort,
      hsame.records]
  have hlisting : (s.sent (next, none) s.replies).listing = s.listing := by
    simp [listing, sent, hsame.filter, hsame.sort]
  -- the stages of the list, each with what it needs of the screen
  cases h with
  | changeDue h => exact .changeDue h
  | reloading h =>
      apply ListInv.reloading
      constructor
      · exact (congrArg (fun pending => pending.getD 0) hsame.pending).trans h.first
      · rw [hrequests, hreload]
        exact h.last
  | reloaded h =>
      apply ListInv.reloaded
      constructor
      · exact (congrArg (fun pending => pending.getD 0) hsame.pending).trans h.first
      · rw [hrequests]
        exact h.served
      · rw [hreload]
        exact h.last
  | shown h =>
      have hrecords : (s.sent (next, none) s.replies).screen.list.records =
          s.screen.list.records := hsame.records
      have hpendingSame : (s.sent (next, none) s.replies).screen.list.pendingLoadOffset =
          s.screen.list.pendingLoadOffset := hsame.pending
      apply ListInv.shown
      -- the records that are shown are a prefix of the listing still
      constructor
      · rw [hrecords, hlisting]
        exact h.shown
      · rw [hlisting]
        exact hsame.totalCount.trans h.total
      · rw [hrecords, hlisting]
        exact h.begun
      · cases h.underWay with
        | quiet hpending hquiet =>
            exact .quiet (hpendingSame.trans hpending) ⟨hrequests.trans hquiet.1, hquiet.2⟩
        | requested hpending hne hone hreplies =>
            apply MoreUnderWay.requested
            · rw [hpendingSame, hrecords, hpending]
            · rw [hrecords]
              exact hne
            · rw [hrequests, hmore]
              exact hone
            · exact hreplies
        | answered hpending hne hnone hreplies =>
            apply MoreUnderWay.answered
            · rw [hpendingSame, hrecords, hpending]
            · rw [hrecords]
              exact hne
            · rw [hrequests]
              exact hnone
            · rw [hmore]
              exact hreplies

/-- Between two events the list waits for nothing. -/
theorem ListInv.of_quiet (h : ListInv s) (hquiet : s.Quiet) :
    Shown s ∧ s.screen.list.pendingLoadOffset = none := by
  cases h with
  | changeDue h =>
      rcases h with ⟨result, hmem, _⟩
      rw [hquiet.2] at hmem
      cases hmem
  | reloading h =>
      rcases h.last with ⟨before, hrequests⟩
      rw [hquiet.1] at hrequests
      exact absurd hrequests.symm (by simp)
  | reloaded h =>
      rcases h.last with ⟨before, hreplies⟩
      rw [hquiet.2] at hreplies
      exact absurd hreplies.symm (by simp)
  | shown h =>
      refine ⟨h, ?_⟩
      cases h.underWay with
      | quiet hpending _ => exact hpending
      | requested _ _ hrequests _ =>
          rw [hquiet.1] at hrequests
          cases hrequests
      | answered _ _ _ hreplies =>
          rw [hquiet.2] at hreplies
          cases hreplies

/-- The first page is a beginning of the listing. -/
theorem shown_replaced {rest : List ListResult} (hrequests : s.requests = [])
    (hrest : rest = []) :
    Shown (s.sent (s.screen.replaced (s.listing.take DEFAULT_RECORD_LIST_PAGE_SIZE)
      s.listing.length, none) rest) where
  shown := List.take_prefix _ _
  total := rfl
  begun := by
    intro hne hempty
    have htake : s.listing.take DEFAULT_RECORD_LIST_PAGE_SIZE = [] := hempty
    rcases List.take_eq_nil_iff.mp htake with hzero | hnil
    · cases hzero
    · exact hne hnil
  underWay := .quiet rfl ⟨by simp [sent, hrequests], hrest⟩

/-- The page behind what is shown goes on with the listing. -/
theorem shown_appended {rest : List ListResult} (hshown : s.screen.list.records <+: s.listing)
    (hrecords : s.screen.list.records ≠ []) (hrequests : s.requests = []) (hrest : rest = []) :
    Shown (s.sent (s.screen.appended
      ((s.listing.drop s.screen.list.records.length).take DEFAULT_RECORD_LIST_PAGE_SIZE)
      s.listing.length, none) rest) := by
  let page := (s.listing.drop s.screen.list.records.length).take DEFAULT_RECORD_LIST_PAGE_SIZE
  have hdistinct : (s.listing.map TuiRecord.id).Nodup := RecordListing.distinct _ _ _
  have hsplit : s.listing = s.screen.list.records ++ s.listing.drop s.screen.list.records.length := by
    calc s.listing = s.listing.take s.screen.list.records.length ++
          s.listing.drop s.screen.list.records.length := (List.take_append_drop _ _).symm
      _ = _ := by rw [← List.prefix_iff_eq_take.mp hshown]
  -- nothing of the page is shown already
  have hnew : page.filter (fun record => record.id ∉ s.screen.list.records.map TuiRecord.id) =
      page := by
    apply List.filter_eq_self.mpr
    intro record hmem
    rw [hsplit, List.map_append] at hdistinct
    have hlater : record.id ∈
        (s.listing.drop s.screen.list.records.length).map TuiRecord.id :=
      List.mem_map_of_mem (List.mem_of_mem_take hmem)
    have hapart := (List.nodup_append.mp hdistinct).2.2
    have hother : record.id ∉ s.screen.list.records.map TuiRecord.id :=
      fun hshownAlready => hapart _ hshownAlready _ hlater rfl
    exact decide_eq_true hother
  have hrecordsNext : s.screen.list.records ++
      page.filter (fun record => record.id ∉ s.screen.list.records.map TuiRecord.id) <+:
        s.listing := by
    rw [hnew]
    calc s.screen.list.records ++ page
        <+: s.screen.list.records ++ s.listing.drop s.screen.list.records.length :=
          List.prefix_append_right_inj _ |>.mpr (List.take_prefix _ _)
      _ = s.listing := hsplit.symm
  constructor
  · exact hrecordsNext
  · rfl
  · intro _ hempty
    exact hrecords (List.append_eq_nil_iff.mp hempty).1
  · exact .quiet rfl ⟨by simp [sent, hrequests], hrest⟩

/-- A request for more, when nothing was under way. -/
theorem shown_more {moved : MainScreenState} (h : Shown s) (hquiet : s.Quiet)
    (hsame : MainScreenState.SameList s.screen moved) (hrecords : s.screen.list.records ≠ []) :
    Shown (s.sent ((moved.loadRecordListCommand s.screen.list.records.length).1,
      some (moved.loadRecordListCommand s.screen.list.records.length).2) s.replies) := by
  generalize htarget : s.sent ((moved.loadRecordListCommand s.screen.list.records.length).1,
    some (moved.loadRecordListCommand s.screen.list.records.length).2) s.replies = target
  have hshown : target.screen.list.records = s.screen.list.records := by
    rw [← htarget]
    exact hsame.records
  -- the request is the only change, so the listing is the same
  have hlisting : target.listing = s.listing := by
    rw [← htarget]
    simp [listing, sent, MainScreenState.loadRecordListCommand, hsame.filter, hsame.sort]
  have htotal : target.screen.list.totalCount = s.screen.list.totalCount := by
    rw [← htarget]
    exact hsame.totalCount
  have hmore : target.more = (moved.loadRecordListCommand s.screen.list.records.length).2 := by
    unfold more
    rw [hshown, ← htarget]
    rfl
  constructor
  · rw [hshown, hlisting]
    exact h.shown
  · rw [htotal, hlisting]
    exact h.total
  · rw [hshown, hlisting]
    exact h.begun
  · apply MoreUnderWay.requested
    · rw [hshown, ← htarget]
      rfl
    · rw [hshown]
      exact hrecords
    · rw [hmore, ← htarget]
      simp [sent, hquiet.1]
    · rw [← htarget]
      exact hquiet.2

/-- An answer that does not tell of a change. -/
theorem ListInv.received {result : ListResult} {rest : List ListResult} (h : ListInv s)
    (hreplies : s.replies = result :: rest) (hanswer : ¬ result.Changes) :
    ListInv (s.sent (s.screen.update result) rest) := by
  -- an answer that changes no record sends nothing and keeps filter and sort
  rcases MainScreenState.update_answer (m := s.screen) hanswer with
    ⟨hnone, hfilter, hsort, hpending⟩
  have hrequests : (s.sent (s.screen.update result) rest).requests = s.requests := by
    simp [sent, hnone]
  have hreload : (s.sent (s.screen.update result) rest).reload = s.reload := by
    simp [reload, sent, MainScreenState.reloadRecordListCommand,
      MainScreenState.loadRecordListCommand, hfilter, hsort]
  have hfirst : s.screen.list.pendingLoadOffset.getD 0 = 0 →
      (s.sent (s.screen.update result) rest).screen.list.pendingLoadOffset.getD 0 = 0 := by
    intro hzero
    rcases hpending with hpending | hpending
    · exact congrArg (fun pending => pending.getD 0) hpending
    · exact (congrArg (fun pending => pending.getD 0) hpending).trans hzero
  cases h with
  -- the change that is due is further back in the queue
  | changeDue h =>
      rcases h with ⟨change, hmem, hchanges⟩
      rw [hreplies] at hmem
      rcases List.mem_cons.mp hmem with heq | hlater
      · rw [heq] at hchanges
        exact absurd hchanges hanswer
      · exact .changeDue ⟨change, hlater, hchanges⟩
  | reloading h =>
      apply ListInv.reloading
      constructor
      · exact hfirst h.first
      · rw [hrequests, hreload]
        exact h.last
  | reloaded h =>
      rcases h.last with ⟨before, hlast⟩
      rw [hreplies] at hlast
      cases before with
      -- the answer to the last reload is the only one left: the first page is shown
      | nil =>
          have hresult : result = answer s.executor s.reload := (List.cons.inj hlast).1
          have hrest : rest = [] := (List.cons.inj hlast).2
          have hupdate : s.screen.update (answer s.executor s.reload) =
              (s.screen.replaced (s.listing.take DEFAULT_RECORD_LIST_PAGE_SIZE)
                s.listing.length, none) :=
            congrArg (fun m => (m, none)) (MainScreenState.recordListLoaded_first h.first)
          rw [hresult, hupdate]
          exact .shown (shown_replaced h.served hrest)
      -- older answers come before the one to the last reload
      | cons first before =>
          apply ListInv.reloaded
          constructor
          · exact hfirst h.first
          · exact hrequests.trans h.served
          · rw [hreload]
            exact ⟨before, (List.cons.inj hlast).2⟩
  | shown h =>
      cases h.underWay with
      -- nothing is under way, so no answer can arrive
      | quiet _ hquiet =>
          rw [hquiet.2] at hreplies
          cases hreplies
      | requested _ _ _ hnoReplies =>
          rw [hnoReplies] at hreplies
          cases hreplies
      -- the page that was awaited is appended
      | answered hawaited hrecords hserved hone =>
          rw [hone] at hreplies
          have hresult : answer s.executor s.more = result := (List.cons.inj hreplies).1
          have hrest : [] = rest := (List.cons.inj hreplies).2
          have hoffset : 0 < s.screen.list.pendingLoadOffset.getD 0 := by
            rw [hawaited]
            exact List.length_pos_iff.mpr hrecords
          have hupdate : s.screen.update (answer s.executor s.more) =
              (s.screen.appended ((s.listing.drop s.screen.list.records.length).take
                DEFAULT_RECORD_LIST_PAGE_SIZE) s.listing.length, none) :=
            congrArg (fun m => (m, none)) (MainScreenState.recordListLoaded_more hoffset)
          rw [← hresult, hupdate]
          exact .shown (shown_appended h.shown hrecords hserved hrest.symm)

/-- Safe steps keep the invariant. -/
theorem ListInv.step {label : ListLabel E} (hstep : listStep s label s')
    (hsafe : ListSafe { source := s, label := label, target := s' }) (h : ListInv s) :
    ListInv s' := by
  cases hstep with
  | input input =>
      have hhandled := MainScreenState.handleInput_handled s.screen input
      generalize s.screen.handleInput input = next at *
      cases hhandled with
      | moved next hsame => exact h.of_same hsame
      | reloaded before => exact .reloading (reloading_sent s before s.replies)
      -- the selection came near the end of what is shown
      | more moved hsame hpending hproper hrecords =>
          have hquiet : s.Quiet :=
            hsafe.loads ⟨_, rfl, List.length_pos_iff.mpr hrecords⟩
          exact .shown (shown_more (h.of_quiet hquiet).1 hquiet hsame hrecords)
  | served request rest hrequests =>
      cases h with
      | changeDue h =>
          -- serving a request leaves the replies that came before
          rcases h with ⟨change, hmem, hchanges⟩
          exact .changeDue ⟨change, List.mem_append_left _ hmem, hchanges⟩
      | reloading h =>
          rcases h.last with ⟨before, hlast⟩
          rw [hrequests] at hlast
          cases before with
          -- the reload itself is served
          | nil =>
              have hrequest : request = s.reload := (List.cons.inj hlast).1
              exact .reloaded ⟨h.first, (List.cons.inj hlast).2, s.replies, by rw [hrequest]; rfl⟩
          | cons first before =>
              exact .reloading ⟨h.first, before, (List.cons.inj hlast).2⟩
      | reloaded h =>
          rw [h.served] at hrequests
          cases hrequests
      -- only a request for the next page can be served here
      | shown h =>
          cases h.underWay with
          | quiet _ hquiet =>
              rw [hquiet.1] at hrequests
              cases hrequests
          | requested hpending hrecords hone hreplies =>
              rw [hone] at hrequests
              have hrequest : s.more = request := (List.cons.inj hrequests).1
              have hrest : [] = rest := (List.cons.inj hrequests).2
              refine .shown ⟨h.shown, h.total, h.begun, .answered hpending hrecords hrest.symm ?_⟩
              rw [hreplies, ← hrequest]
              rfl
          | answered _ _ hserved _ =>
              rw [hserved] at hrequests
              cases hrequests
  | failed request rest hrequests =>
      -- a request fails only while a later reload is waiting
      rcases hsafe.failures rfl with ⟨later, hlater, _⟩
      replace hlater : later ∈ rest := by
        have htail : s.requests.tail = rest := by rw [hrequests]; rfl
        exact htail ▸ hlater
      cases h with
      | changeDue h =>
          rcases h with ⟨change, hmem, hchanges⟩
          exact .changeDue ⟨change, List.mem_append_left _ hmem, hchanges⟩
      | reloading h =>
          rcases h.last with ⟨before, hlast⟩
          rw [hrequests] at hlast
          cases before with
          | nil =>
              rw [(List.cons.inj hlast).2] at hlater
              cases hlater
          | cons first before =>
              exact .reloading ⟨h.first, before, (List.cons.inj hlast).2⟩
      | reloaded h =>
          rw [h.served] at hrequests
          cases hrequests
      | shown h =>
          cases h.underWay with
          | quiet _ hquiet =>
              rw [hquiet.1] at hrequests
              cases hrequests
          | requested _ _ hone _ =>
              rw [hone] at hrequests
              rw [← (List.cons.inj hrequests).2] at hlater
              cases hlater
          | answered _ _ hserved _ =>
              rw [hserved] at hrequests
              cases hrequests
  | changed result executor hchanges =>
      exact .changeDue ⟨result, List.mem_append_right _ List.mem_cons_self, hchanges⟩
  | received result rest hreplies =>
      -- a reload is sent for every change
      by_cases hchanges : result.Changes
      · rw [MainScreenState.update_changes hchanges]
        exact .reloading (reloading_sent s _ rest)
      · exact h.received hreplies hchanges

end PagedList

namespace PagedList

variable {E : Type} [RecordListing E]

/-- Whether a label fits the state. -/
def fits (s : PagedList E) : ListLabel E → Bool
  | .input _ => true
  | .served => !s.requests.isEmpty
  | .failed => !s.requests.isEmpty
  | .changed result _ => decide result.Changes
  | .received => !s.replies.isEmpty

/-- The state after a label that fits. -/
def after (s : PagedList E) : ListLabel E → PagedList E
  | .input input => s.sent (s.screen.handleInput input) s.replies
  | .served =>
      match s.requests with
      | [] => s
      | request :: rest =>
          { s with
            requests := rest
            replies := s.replies ++ [answer s.executor request] }
  | .failed =>
      match s.requests with
      | [] => s
      | _ :: rest =>
          { s with
            requests := rest
            replies := s.replies ++ [.Error] }
  | .changed result e =>
      { s with
        replies := s.replies ++ [result]
        executor := e }
  | .received =>
      match s.replies with
      | [] => s
      | result :: rest => s.sent (s.screen.update result) rest

theorem listStep_after {s : PagedList E} {label : ListLabel E} (h : s.fits label = true) :
    listStep s label (s.after label) := by
  rcases s with ⟨screen, requests, replies, executor⟩
  cases label with
  | input input => exact .input _ input
  | served =>
      cases requests with
      | nil => cases h
      | cons request rest => exact .served _ request rest rfl
  | failed =>
      cases requests with
      | nil => cases h
      | cons request rest => exact .failed _ request rest rfl
  | changed result e => exact .changed _ result e (of_decide_eq_true h)
  | received =>
      cases replies with
      | nil => cases h
      | cons result rest => exact .received _ result rest rfl

def fitsAll : PagedList E → List (ListLabel E) → Bool
  | _, [] => true
  | s, label :: labels => s.fits label && fitsAll (s.after label) labels

def steps : PagedList E → List (ListLabel E) → List (Step (PagedList E) (ListLabel E))
  | _, [] => []
  | s, label :: labels =>
      { source := s, label := label, target := s.after label } :: steps (s.after label) labels

def afterAll : PagedList E → List (ListLabel E) → PagedList E
  | s, [] => s
  | s, label :: labels => afterAll (s.after label) labels

theorem run_steps {s : PagedList E} {labels : List (ListLabel E)}
    (h : s.fitsAll labels = true) : Run listStep s (s.steps labels) (s.afterAll labels) := by
  induction labels generalizing s with
  | nil => exact Run.nil s
  | cons label labels ih =>
      rcases (Bool.and_eq_true _ _).mp h with ⟨hfits, hrest⟩
      exact Run.cons (listStep_after hfits) (ih hrest)

/-- No load fails at the label, and more is asked for only while nothing is under way. -/
def calm (s : PagedList E) (label : ListLabel E) : Bool :=
  (match label with
    | .failed => false
    | _ => true) &&
  (decide ((s.after label).requests.length ≤ s.requests.length) ||
    s.requests.isEmpty && s.replies.isEmpty)

end PagedList

namespace TwoReloads

/-- The first identifiers. -/
def recordId (n : Fin 512) : Uuid :=
  ⟨List.replicate 29 0 ++ [Fin.ofNat 16 (n / 256), Fin.ofNat 16 (n / 16), Fin.ofNat 16 n], rfl⟩

theorem recordId_injective : Function.Injective recordId := by
  intro a b h
  have hdigits := congrArg Uuid.digits h
  have hlast := List.append_cancel_left hdigits
  simp only [List.cons.injEq, Fin.ofNat, Fin.mk.injEq, and_true] at hlast
  apply Fin.ext
  omega

def note (n : Fin 512) : TuiRecord where
  id := recordId n
  credentialType := .SecureNote
  name := "note"
  subtitle := ""
  isFavorite := false
  isExpired := false
  expiresAt := none
  hasWeakPassword := false
  isCompromised := false
  duplicateGroupSize := none
  createdAt := timestamp
  updatedAt := timestamp
  deleted := false
  deletedAt := none
  tags := []
  syncStatus := none
where
  timestamp : DateTime := { seconds := 0, nanos := 0 }

/-- A vault with the given number of notes, shown in one order for every filter. -/
@[reducible] def listing : RecordListing Nat where
  rows n _ _ := ((List.finRange 512).take n).map note
  distinct n _ _ := by
    have hall : ((List.finRange 512).take n).Nodup :=
      (List.nodup_finRange 512).sublist (List.take_sublist n _)
    rw [List.map_map]
    exact List.Nodup.map recordId_injective hall

/-- The main screen of a new session. -/
def screen : MainScreenState where
  list :=
    { records := []
      selectedIndex := none
      visual := none
      totalCount := 0
      pendingLoadOffset := none
      visibleHeight := 0 }
  currentFilter := .All
  currentSort :=
    { field := .CreatedAt
      direction := .Desc }
  listAutoSelect := false
  batchTagPanelOpen := false

section

attribute [local instance] listing

end

end TwoReloads

end OakKeyring
