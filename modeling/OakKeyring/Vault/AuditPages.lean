import OakKeyring.Samples.Import
import OakKeyring.Vault.AuditLog

/-!
# The pages of the audit log together

The order of the statement has no tie-breaker, and a search is a pattern of bounded length. The
pages are complete when none of it shows.
-/

namespace OakKeyring

open Effect Paging

/-- The order of the statement, on entries. -/
def latestEntryFirst (a b : AuditEntry) : Ordering :=
  latestFirst a.toRow b.toRow

instance : Std.TransCmp latestEntryFirst :=
  inferInstanceAs (Std.TransCmp fun a b : AuditEntry =>
    compareOn (fun entry : AuditEntry => datetimeToTimestamp entry.occurredAt) b a)

theorem latestEntryFirst_eq_iff {a b : AuditEntry} :
    latestEntryFirst a b = .eq ↔ a.occurredAt.seconds = b.occurredAt.seconds := by
  unfold latestEntryFirst latestFirst AuditEntry.toRow datetimeToTimestamp
  rw [Std.LawfulEqCmp.compare_eq_iff_eq]
  exact eq_comm

theorem latestEntryFirst_isLE_iff {a b : AuditEntry} :
    (latestEntryFirst a b).isLE = true ↔ b.occurredAt.seconds ≤ a.occurredAt.seconds := by
  unfold latestEntryFirst latestFirst AuditEntry.toRow datetimeToTimestamp
  exact Std.isLE_compare

/-! ## The rows of a page -/

section Listings

variable {insertions : List Insertion} {filter : AuditFilter} {now time : DateTime}

/-- The entries that the statements select. -/
def selectedEntries (insertions : List Insertion) (filter : AuditFilter) (now : DateTime) :
    List AuditEntry :=
  (insertedEntries insertions).filter (filter.selects now)

/-- An order in which the database may list the selected entries. -/
def Listing (insertions : List Insertion) (filter : AuditFilter) (now : DateTime)
    (listing : List AuditEntry) : Prop :=
  listing.Perm (selectedEntries insertions filter now) ∧ InOrder latestEntryFirst listing

theorem mem_of_mem_listing {listing : List AuditEntry} (h : Listing insertions filter now listing)
    {entry : AuditEntry} (hmem : entry ∈ listing) : entry ∈ insertedEntries insertions :=
  List.mem_of_mem_filter (h.1.mem_iff.mp hmem)

theorem selectedEntries_ids :
    (selectedEntries insertions filter now).Pairwise fun a b => a.id < b.id :=
  insertedEntries_ids.sublist List.filter_sublist

theorem selectedEntries_back (hclock : ClockForward insertions) :
    (selectedEntries insertions filter now).Pairwise fun a b =>
      (latestEntryFirst b a).isLE = true := by
  have hseconds : (selectedEntries insertions filter now).Pairwise fun a b =>
      a.occurredAt.seconds ≤ b.occurredAt.seconds :=
    (insertedEntries_seconds hclock).sublist List.filter_sublist
  exact hseconds.imp fun hle => latestEntryFirst_isLE_iff.mpr hle

/-- The reverse is the only listing exactly when no second has two of the entries. -/
theorem only_listing_iff (hclock : ClockForward insertions) :
    (∀ listing, Listing insertions filter now listing →
        listing = (selectedEntries insertions filter now).reverse) ↔
      (selectedEntries insertions filter now).Pairwise fun a b =>
        a.occurredAt.seconds ≠ b.occurredAt.seconds := by
  have hiff := eq_reverse_iff selectedEntries_ids
    (@selectedEntries_back insertions filter now hclock)
  simp only [ne_eq, latestEntryFirst_eq_iff] at hiff
  rw [← hiff]
  constructor
  · intro h rows hperm horder
    exact h rows ⟨hperm, horder⟩
  · intro h rows hrows
    exact h rows hrows.1 hrows.2

theorem exists_listing : ∃ listing, Listing insertions filter now listing :=
  ⟨sorted latestEntryFirst _, sorted_perm _, inOrder_sorted _⟩

/-- The rows are selected as at `now` while the window is the same. -/
theorem selected_eq (hwindow : SameWindow (insertedEntries insertions) filter now time) :
    (AuditLog.after insertions).selected (filter.conditions time) =
      (selectedEntries insertions filter now).map AuditEntry.toRow := by
  rw [AuditLog.selected, AuditLog.after_eq, List.filter_map, selectedEntries]
  congr 1
  apply List.filter_congr
  intro entry hentry
  rw [Function.comp_apply, AuditFilter.selects_conditions, AuditFilter.selects,
    AuditFilter.selects, hwindow entry hentry]

theorem countAuditEntries_eq (hwindow : SameWindow (insertedEntries insertions) filter now time) :
    (AuditLog.after insertions).countAuditEntries (filter.conditions time) =
      (selectedEntries insertions filter now).length := by
  rw [AuditLog.countAuditEntries, selected_eq hwindow, List.length_map]

/-- No entry in the scope is compared with a pattern that is too long. -/
def PatternShort (insertions : List Insertion) (filter : AuditFilter) (now : DateTime) : Prop :=
  ∀ text, filter.search = some text → ∀ entry ∈ insertedEntries insertions,
    filter.inScope now entry = true → searchTextRaises text = false

/-- The statements raise no error exactly when the pattern is short enough. -/
theorem raises_eq_false_iff (hwindow : SameWindow (insertedEntries insertions) filter now time) :
    (AuditLog.after insertions).raises (filter.conditions time) = false ↔
      PatternShort insertions filter now := by
  unfold AuditLog.raises PatternShort
  rw [AuditLog.after_eq, List.any_map, List.any_eq_false]
  have hentry : ∀ entry ∈ insertedEntries insertions,
      ¬ ((filter.conditions time).raises ∘ AuditEntry.toRow) entry = true ↔
        ∀ text, filter.search = some text → filter.inScope now entry = true →
          searchTextRaises text = false := by
    intro entry hentry
    have hsearch : (filter.conditions time).search = filter.search := rfl
    rw [Function.comp_apply, AuditConditions.raises, AuditFilter.inScope_conditions,
      hwindow entry hentry, hsearch]
    cases filter.search with
    | none => simp
    | some text => simp
  constructor
  · intro h text htext entry hmem hscope
    exact (hentry entry hmem).mp (h entry hmem) text htext hscope
  · intro h entry hmem
    exact (hentry entry hmem).mpr fun text htext hscope => h text htext entry hmem hscope

/-- A page is a piece of a listing. -/
theorem isAuditPage_iff (hwindow : SameWindow (insertedEntries insertions) filter now time)
    {limit offset : Nat} {page : List AuditLogRow} :
    (AuditLog.after insertions).IsAuditPage (filter.conditions time) limit offset page ↔
      ∃ listing, Listing insertions filter now listing ∧
        page = ((listing.drop offset).take limit).map AuditEntry.toRow := by
  unfold AuditLog.IsAuditPage
  rw [selected_eq hwindow]
  constructor
  · intro h
    rcases h with ⟨rows, hperm, horder, hpage⟩
    rcases exists_map_of_perm hperm with ⟨listing, hlisting, rfl⟩
    refine ⟨listing, ⟨hlisting, List.pairwise_map.mp horder⟩, ?_⟩
    rw [hpage, List.map_take, List.map_drop]
  · intro h
    rcases h with ⟨listing, ⟨hperm, horder⟩, hpage⟩
    refine ⟨listing.map AuditEntry.toRow, hperm.map _, List.pairwise_map.mpr horder, ?_⟩
    rw [hpage, List.map_take, List.map_drop]

/-- The entries of a page are read back. -/
theorem mapM_toAuditEntry {entries : List AuditEntry}
    (h : ∀ entry ∈ entries, entry.occurredAt.nanos = 0) :
    (entries.map AuditEntry.toRow).mapM AuditLogRow.toAuditEntry = .ok entries := by
  induction entries with
  | nil => rfl
  | cons entry entries ih =>
      rw [List.map_cons, List.mapM_cons, AuditEntry.toAuditEntry_toRow (h entry List.mem_cons_self),
        ih fun other hother => h other (List.mem_cons_of_mem entry hother)]
      rfl

theorem readRows_page {listing : List AuditEntry} (h : Listing insertions filter now listing)
    (limit offset : Nat) :
    Audit.readRows (((listing.drop offset).take limit).map AuditEntry.toRow) =
      pure ((listing.drop offset).take limit) := by
  unfold Audit.readRows
  rw [mapM_toAuditEntry]
  intro entry hentry
  have hlisted : entry ∈ listing := List.mem_of_mem_drop (List.mem_of_mem_take hentry)
  exact nanos_of_mem_insertedEntries (mem_of_mem_listing h hlisted)

end Listings

/-! ## Runs -/

section Statements

variable {times : DateTime → Prop} {log : AuditLog} {conditions : AuditConditions}

theorem wpe_computeTimeBounds {filter : AuditFilter} {now : DateTime} (hnow : times now) :
    wpe (auditEnv times)
      (fun bounds u => u = log ∧ ∃ time, times time ∧ bounds = (filter.windowStart time, none))
      (fun _ _ => True) (Audit.computeTimeBounds filter.timeRange) log := by
  unfold Audit.computeTimeBounds AuditFilter.windowStart
  cases filter.timeRange.bind AuditTimeRange.duration with
  | none => exact ⟨rfl, now, hnow, rfl⟩
  | some duration =>
      refine (wpe_bind _ _).mpr (wpe_ask ?_)
      intro time u hstep
      exact ⟨hstep.1, time, hstep.2, rfl⟩

theorem wpe_countAuditEntries :
    wpe (auditEnv times)
      (fun total u => u = log ∧ log.raises conditions = false ∧
        total = log.countAuditEntries conditions)
      (fun _ _ => True) (Audit.countAuditEntries conditions) log := by
  refine wpe_call ?_ fun _ _ _ _ _ => trivial
  intro answer total u hanswer hstep
  rcases hstep with ⟨hu, ⟨hquiet, hcount⟩ | ⟨e, herror⟩⟩
  · rw [hcount] at hanswer
    exact ⟨hu, hquiet, (Except.ok.inj hanswer).symm⟩
  · rw [herror] at hanswer
    cases hanswer

theorem wpe_listRows {limit offset : Nat} :
    wpe (auditEnv times) (fun page u => u = log ∧ log.IsAuditPage conditions limit offset page)
      (fun _ _ => True) (Audit.listRows conditions limit offset) log := by
  refine wpe_call ?_ fun _ _ _ _ _ => trivial
  intro answer page u hanswer hstep
  rcases hstep with ⟨hu, ⟨selected, -, hpage, hselected⟩ | ⟨e, herror⟩⟩
  · rw [hselected] at hanswer
    rw [← Except.ok.inj hanswer]
    exact ⟨hu, hpage⟩
  · rw [herror] at hanswer
    cases hanswer

theorem answers_computeTimeBounds {filter : AuditFilter} {now : DateTime} (hnow : times now) :
    Answers (auditEnv times) log (Audit.computeTimeBounds filter.timeRange)
      (filter.windowStart now, none) log := by
  unfold Audit.computeTimeBounds AuditFilter.windowStart
  cases filter.timeRange.bind AuditTimeRange.duration with
  | none => exact answers_pure _
  | some duration =>
      have htime : Answers (auditEnv times) log Audit.now now log :=
        ⟨[⟨.now, now⟩], ⟨now, [], rfl, rfl, rfl⟩, log, ⟨rfl, hnow⟩, rfl⟩
      exact htime.bind (answers_pure _)

end Statements

section Runs

variable {insertions : List Insertion} {filter : AuditFilter} {now : DateTime}

theorem sameWindow_refl (entries : List AuditEntry) : SameWindow entries filter now now :=
  fun _ _ => rfl

/-- A query answers the number of selected entries and a piece of a listing of them, if it can be
made. -/
theorem wpe_queryAuditLog (offset : Nat) :
    wpe (auditEnv (SameWindow (insertedEntries insertions) filter now))
      (fun answer u => u = AuditLog.after insertions ∧ PatternShort insertions filter now ∧
        ∃ listing, Listing insertions filter now listing ∧
          answer = ((listing.drop offset).take filter.pageSize,
            (selectedEntries insertions filter now).length))
      (fun _ _ => True) (queryAuditLog { filter with offset := offset })
      (AuditLog.after insertions) := by
  unfold queryAuditLog
  refine (wpe_bind _ _).mpr (wpe_mono ?_ (fun _ _ _ => trivial)
    (wpe_computeTimeBounds (sameWindow_refl (insertedEntries insertions))))
  rintro bounds u ⟨rfl, time, hwindow, rfl⟩
  refine (wpe_bind _ _).mpr (wpe_mono ?_ (fun _ _ _ => trivial) wpe_countAuditEntries)
  rintro total u ⟨rfl, hquiet, rfl⟩
  refine (wpe_bind _ _).mpr (wpe_mono ?_ (fun _ _ _ => trivial) wpe_listRows)
  rintro rows u ⟨rfl, hpage⟩
  rcases (isAuditPage_iff hwindow).mp hpage with ⟨listing, hlisting, rfl⟩
  rw [readRows_page hlisting]
  have hcount := countAuditEntries_eq hwindow
  exact ⟨rfl, (raises_eq_false_iff hwindow).mp hquiet, listing, hlisting, Prod.ext rfl hcount⟩

/-- Any listing may be the answer. -/
theorem answers_queryAuditLog {listing : List AuditEntry}
    (hshort : PatternShort insertions filter now)
    (hlisting : Listing insertions filter now listing) (offset : Nat) :
    Answers (auditEnv (SameWindow (insertedEntries insertions) filter now))
      (AuditLog.after insertions) (queryAuditLog { filter with offset := offset })
      ((listing.drop offset).take filter.pageSize, (selectedEntries insertions filter now).length)
      (AuditLog.after insertions) := by
  have hwindow := @sameWindow_refl filter now (insertedEntries insertions)
  have hquiet := (raises_eq_false_iff hwindow).mpr hshort
  apply (answers_computeTimeBounds hwindow).bind
  have hcount : Answers (auditEnv (SameWindow (insertedEntries insertions) filter now))
      (AuditLog.after insertions) (Audit.countAuditEntries (filter.conditions now))
      (selectedEntries insertions filter now).length (AuditLog.after insertions) :=
    answers_call rfl
      ⟨rfl, Or.inl ⟨hquiet, congrArg Except.ok (countAuditEntries_eq hwindow).symm⟩⟩
  have hrows : Answers (auditEnv (SameWindow (insertedEntries insertions) filter now))
      (AuditLog.after insertions) (Audit.listRows (filter.conditions now) filter.pageSize offset)
      (((listing.drop offset).take filter.pageSize).map AuditEntry.toRow)
      (AuditLog.after insertions) :=
    answers_call rfl
      ⟨rfl, Or.inl ⟨_, hquiet, (isAuditPage_iff hwindow).mpr ⟨listing, hlisting, rfl⟩, rfl⟩⟩
  apply hcount.bind
  apply hrows.bind
  rw [readRows_page hlisting]
  exact answers_pure _

/-- The pages that one listing gives, each with its total. -/
def listingPages (insertions : List Insertion) (filter : AuditFilter) (now : DateTime)
    (listing : List AuditEntry) (count : Nat) : List (List AuditEntry × Nat) :=
  (List.range count).map fun k =>
    (page filter.pageSize listing k, (selectedEntries insertions filter now).length)

theorem flatten_listingPages (listing : List AuditEntry) (count : Nat) :
    ((listingPages insertions filter now listing count).map Prod.fst).flatten =
      (pages filter.pageSize listing count).flatten := by
  unfold listingPages pages
  rw [List.map_map]
  rfl

/-- With a single listing, the pages are its pieces. -/
theorem wpe_queryPages {whole : List AuditEntry}
    (honly : ∀ listing, Listing insertions filter now listing → listing = whole) (count : Nat) :
    wpe (auditEnv (SameWindow (insertedEntries insertions) filter now))
      (fun pages u => u = AuditLog.after insertions ∧
        pages = listingPages insertions filter now whole count)
      (fun _ _ => True) (queryPages filter count) (AuditLog.after insertions) := by
  refine wpe_mapM (P := fun done (pages : List (List AuditEntry × Nat)) u =>
    u = AuditLog.after insertions ∧ pages = done.map fun k =>
      (page filter.pageSize whole k, (selectedEntries insertions filter now).length)) ?_ ?_
  · exact ⟨rfl, rfl⟩
  · rintro done k rest pages u - ⟨rfl, rfl⟩
    refine wpe_mono ?_ (fun _ _ _ => trivial) (wpe_queryAuditLog (k * filter.pageSize))
    rintro answer u ⟨rfl, -, listing, hlisting, rfl⟩
    rw [honly listing hlisting, List.map_append]
    exact ⟨rfl, rfl⟩

/-- A page is answered only to a short pattern. -/
theorem wpe_queryPages_short (count : Nat) :
    wpe (auditEnv (SameWindow (insertedEntries insertions) filter now))
      (fun _ _ => 0 < count → PatternShort insertions filter now) (fun _ _ => True)
      (queryPages filter count) (AuditLog.after insertions) := by
  have hloop : wpe (auditEnv (SameWindow (insertedEntries insertions) filter now))
      (fun _ u => u = AuditLog.after insertions ∧
        (List.range count ≠ [] → PatternShort insertions filter now))
      (fun _ _ => True) (queryPages filter count) (AuditLog.after insertions) := by
    refine wpe_mapM (P := fun done (_ : List (List AuditEntry × Nat)) u =>
      u = AuditLog.after insertions ∧ (done ≠ [] → PatternShort insertions filter now)) ?_ ?_
    · exact ⟨rfl, fun hne => absurd rfl hne⟩
    · rintro done k rest pages u - ⟨rfl, -⟩
      refine wpe_mono ?_ (fun _ _ _ => trivial) (wpe_queryAuditLog (k * filter.pageSize))
      rintro answer u ⟨rfl, hshort, -⟩
      exact ⟨rfl, fun _ => hshort⟩
  refine wpe_mono ?_ (fun _ _ h => h) hloop
  intro _ _ hend hpos
  exact hend.2 (by simpa using hpos.ne')

theorem answers_queryPages {listing : List AuditEntry}
    (hshort : PatternShort insertions filter now)
    (hlisting : Listing insertions filter now listing) (count : Nat) :
    Answers (auditEnv (SameWindow (insertedEntries insertions) filter now))
      (AuditLog.after insertions) (queryPages filter count)
      (listingPages insertions filter now listing count) (AuditLog.after insertions) :=
  answers_mapM _ fun k _ => answers_queryAuditLog hshort hlisting (k * filter.pageSize)

end Runs

/-! ## When the pages are complete -/

section Complete

variable [Unicode]

/-- The entries that meet a filter, the earliest first. -/
def metEntries (insertions : List Insertion) (filter : AuditFilter) (now : DateTime) :
    List AuditEntry :=
  (insertedEntries insertions).filter (filter.meets now)

/-- The pattern of a search is short enough and finds the entries in the scope that mention its
text, the entries that meet the filter are of different seconds, and a page has rows. -/
structure ReadsPlainly (insertions : List Insertion) (filter : AuditFilter) (now : DateTime) :
    Prop where
  short : PatternShort insertions filter now
  mentioned : ∀ text, filter.search = some text → ∀ entry ∈ insertedEntries insertions,
    filter.inScope now entry = true → entry.fits text = true → entry.mentions text = true
  found : ∀ text, filter.search = some text → ∀ entry ∈ insertedEntries insertions,
    filter.inScope now entry = true → entry.mentions text = true → entry.fits text = true
  seconds : (metEntries insertions filter now).Pairwise fun a b =>
    a.occurredAt.seconds ≠ b.occurredAt.seconds
  pageSize : filter.pageSize = 0 → metEntries insertions filter now = []

variable {insertions : List Insertion} {filter : AuditFilter} {now : DateTime}

theorem selects_eq_meets_iff {entry : AuditEntry} :
    filter.selects now entry = filter.meets now entry ↔
      ∀ text, filter.search = some text → filter.inScope now entry = true →
        (entry.fits text = true ↔ entry.mentions text = true) := by
  unfold AuditFilter.selects AuditFilter.meets
  cases hsearch : filter.search with
  | none => simp
  | some text =>
      cases hscope : filter.inScope now entry with
      | false => simp
      | true =>
          simp only [Bool.true_and, Option.all_some]
          constructor
          · intro h other hother _
            rw [← Option.some.inj hother]
            exact Bool.eq_iff_iff.mp h
          · intro h
            exact Bool.eq_iff_iff.mpr (h text rfl trivial)

/-- The statements select what meets the filter when the search is plain for its scope. -/
theorem selects_eq_meets (h : ReadsPlainly insertions filter now) {entry : AuditEntry}
    (hentry : entry ∈ insertedEntries insertions) :
    filter.selects now entry = filter.meets now entry := by
  rw [selects_eq_meets_iff]
  intro text hsearch hscope
  exact ⟨h.mentioned text hsearch entry hentry hscope, h.found text hsearch entry hentry hscope⟩

theorem selectedEntries_eq (h : ∀ entry ∈ insertedEntries insertions,
    filter.selects now entry = filter.meets now entry) :
    selectedEntries insertions filter now = metEntries insertions filter now :=
  List.filter_congr h

theorem pagesComplete_of_readsPlainly (hclock : ClockForward insertions)
    (h : ReadsPlainly insertions filter now) : PagesComplete insertions filter now := by
  have hselected : selectedEntries insertions filter now = metEntries insertions filter now :=
    selectedEntries_eq fun _ => selects_eq_meets h
  have honly := (@only_listing_iff insertions filter now hclock).mpr
    (hselected ▸ h.seconds)
  rcases @exists_listing insertions filter now with ⟨listing, hlisting⟩
  refine ⟨fun count => ⟨_, answers_queryPages h.short hlisting count⟩,
    (metEntries insertions filter now).length, ?_⟩
  intro count hcount pages' log' hanswers
  have hpages := (hanswers.of_wpe (wpe_queryPages honly count)).2
  rw [hselected] at hpages
  constructor
  · rw [hpages, flatten_listingPages, flatten_pages]
    apply List.take_of_length_le
    rw [List.length_reverse]
    rcases Nat.eq_zero_or_pos filter.pageSize with hzero | hpos
    · simp [h.pageSize hzero]
    · exact hcount.trans (Nat.le_mul_of_pos_right count hpos)
  · intro answer hanswer
    rw [hpages] at hanswer
    rcases List.mem_map.mp hanswer with ⟨k, _, rfl⟩
    exact congrArg List.length hselected

/-- Complete pages are answered, so that the pattern is short enough. -/
theorem PagesComplete.short (h : PagesComplete insertions filter now) :
    PatternShort insertions filter now := by
  rcases h.1 1 with ⟨pages, hanswers⟩
  exact hanswers.of_wpe (wpe_queryPages_short 1) Nat.one_pos

/-- Complete pages list what meets the filter, in each order that the database may choose. -/
theorem PagesComplete.listing_eq (h : PagesComplete insertions filter now)
    (hsize : filter.pageSize ≠ 0) {listing : List AuditEntry}
    (hlisting : Listing insertions filter now listing) :
    listing = (metEntries insertions filter now).reverse := by
  have hshort := h.short
  rcases h.2 with ⟨enough, h⟩
  let count := enough + listing.length
  have hcomplete :=
    (h count (Nat.le_add_right _ _) _ _ (answers_queryPages hshort hlisting count)).1
  rw [flatten_listingPages, flatten_pages_all] at hcomplete
  · exact hcomplete
  · calc listing.length ≤ count := Nat.le_add_left _ _
      _ ≤ count * filter.pageSize := Nat.le_mul_of_pos_right count (Nat.pos_of_ne_zero hsize)

/-- Pages without rows are complete only if nothing meets the filter, and then nothing is
selected. -/
theorem PagesComplete.eq_nil (h : PagesComplete insertions filter now)
    (hsize : filter.pageSize = 0) :
    metEntries insertions filter now = [] ∧ selectedEntries insertions filter now = [] := by
  have hshort := h.short
  rcases h.2 with ⟨enough, h⟩
  rcases @exists_listing insertions filter now
    with ⟨listing, hlisting⟩
  have hcomplete := h (enough + 1) (Nat.le_succ enough) _ _ (answers_queryPages hshort hlisting _)
  have hmet : metEntries insertions filter now = [] := by
    have hflat := hcomplete.1
    rw [flatten_listingPages, flatten_pages, hsize, Nat.mul_zero, List.take_zero] at hflat
    exact List.reverse_eq_nil_iff.mp hflat.symm
  have hfirst : (page filter.pageSize listing 0, (selectedEntries insertions filter now).length) ∈
      listingPages insertions filter now listing (enough + 1) :=
    List.mem_map.mpr ⟨0, List.mem_range.mpr (Nat.succ_pos enough), rfl⟩
  have htotal : (selectedEntries insertions filter now).length =
      (metEntries insertions filter now).length := hcomplete.2 _ hfirst
  rw [hmet, List.length_nil] at htotal
  exact ⟨hmet, List.length_eq_zero_iff.mp htotal⟩

/-- Complete pages select what meets the filter. -/
theorem PagesComplete.selects_eq_meets (h : PagesComplete insertions filter now)
    {entry : AuditEntry} (hentry : entry ∈ insertedEntries insertions) :
    filter.selects now entry = filter.meets now entry := by
  have hsame : entry ∈ selectedEntries insertions filter now ↔
      entry ∈ metEntries insertions filter now := by
    by_cases hsize : filter.pageSize = 0
    · rw [(h.eq_nil hsize).1, (h.eq_nil hsize).2]
    · rcases @exists_listing insertions filter now
        with ⟨listing, hlisting⟩
      rw [← hlisting.1.mem_iff, h.listing_eq hsize hlisting, List.mem_reverse]
  rw [selectedEntries, metEntries, List.mem_filter, List.mem_filter] at hsame
  exact Bool.eq_iff_iff.mpr (by simpa [hentry] using hsame)

theorem readsPlainly_of_pagesComplete (hclock : ClockForward insertions)
    (h : PagesComplete insertions filter now) : ReadsPlainly insertions filter now where
  short := h.short
  mentioned := by
    intro text hsearch entry hentry hscope hfits
    exact (selects_eq_meets_iff.mp (h.selects_eq_meets hentry) text hsearch hscope).mp hfits
  found := by
    intro text hsearch entry hentry hscope hmentions
    exact (selects_eq_meets_iff.mp (h.selects_eq_meets hentry) text hsearch hscope).mpr hmentions
  seconds := by
    by_cases hsize : filter.pageSize = 0
    · rw [(h.eq_nil hsize).1]
      exact List.Pairwise.nil
    · have hselected : selectedEntries insertions filter now = metEntries insertions filter now :=
        selectedEntries_eq fun _ => h.selects_eq_meets
      rw [← hselected]
      apply (only_listing_iff hclock).mp
      intro listing hlisting
      rw [hselected]
      exact h.listing_eq hsize hlisting
  pageSize := fun hsize => (h.eq_nil hsize).1

/-- The pages of a log are complete exactly when no second has two entries that meet the filter,
a page has rows, and the pattern of a search is short enough and finds those entries in its scope
that mention the text. -/
theorem pagesComplete_iff (hclock : ClockForward insertions) :
    PagesComplete insertions filter now ↔ ReadsPlainly insertions filter now :=
  ⟨readsPlainly_of_pagesComplete hclock, pagesComplete_of_readsPlainly hclock⟩

end Complete

/-! ## Plain texts -/

section PlainTexts

variable [Unicode]

/-- Only the ASCII letters of a text have two cases. -/
def AsciiCased (s : String) : Prop :=
  toLowercase s = String.ofList (s.toList.map Char.toLower)

/-- A text without wildcards is found where it is mentioned, among texts without other letters
that have two cases and without a NUL. -/
theorem AuditEntry.fits_iff_mentions {text : String} {entry : AuditEntry}
    (hplain : ∀ c ∈ text.toList, plainCharacter c) (hascii : AsciiCased text)
    (htexts : ∀ s : String, entry.recordName = some s ∨ entry.detail = some s →
      AsciiCased s ∧ '\x00' ∉ s.toList) :
    entry.fits text = true ↔ entry.mentions text = true := by
  have hfound : ∀ s : String, AsciiCased s ∧ '\x00' ∉ s.toList →
      like ("%" ++ text ++ "%") s = containsFolded text s := by
    intro s hs
    rw [Bool.eq_iff_iff, like_iff_contains hplain hs.2, containsFolded, containsText, hs.1, hascii,
      decide_eq_true_iff, String.toList_ofList, String.toList_ofList]
  have hoption : ∀ value : Option String, (∀ s, value = some s → AsciiCased s ∧
      '\x00' ∉ s.toList) → value.any (like ("%" ++ text ++ "%")) =
        value.any (containsFolded text) := by
    intro value hvalue
    cases value with
    | none => rfl
    | some s => exact hfound s (hvalue s rfl)
  unfold AuditEntry.fits fitsSearch AuditEntry.mentions
  dsimp only
  rw [hoption entry.recordName fun s hs => htexts s (Or.inl hs),
    hoption entry.detail fun s hs => htexts s (Or.inr hs)]

end PlainTexts

/-! ## Two entries of one second -/

namespace SameSecond

section

attribute [local instance] FileImport.unicode

/-- A record is deleted. -/
def deletion (seconds : Int) : Insertion where
  now := ⟨seconds, 0⟩
  operation := .RecordDelete
  recordId := none
  recordName := some "note"
  detail := none

/-- All deletions, with a search or without. -/
def deletions (search : Option String) : AuditFilter where
  operation := some .RecordDelete
  timeRange := none
  search := search
  limit := some 1
  offset := 0

/-- Of two entries of one second, the earlier may come first. -/
theorem pages_incomplete :
    ClockForward [deletion 0, deletion 0] ∧
      ¬ PagesComplete [deletion 0, deletion 0] (deletions none) Sample.instant := by
  have hclock : ClockForward [deletion 0, deletion 0] := by
    unfold ClockForward
    decide
  refine ⟨hclock, ?_⟩
  intro hcomplete
  have hseconds := (readsPlainly_of_pagesComplete hclock hcomplete).seconds
  have hmet : metEntries [deletion 0, deletion 0] (deletions none) Sample.instant =
      [(deletion 0).entry 1, (deletion 0).entry 2] := rfl
  rw [hmet, List.pairwise_pair] at hseconds
  exact hseconds rfl

theorem readsPlainly :
    ReadsPlainly [deletion 0, deletion 1] (deletions (some "NOTE")) Sample.instant := by
  -- both entries name the record in lower case, and the search does not distinguish cases
  have halike : ∀ text, (deletions (some "NOTE")).search = some text →
      ∀ entry ∈ insertedEntries [deletion 0, deletion 1],
        (entry.fits text = true ↔ entry.mentions text = true) := by
    intro text htext entry hentry
    cases htext
    have hname : entry.recordName = some "note" ∧ entry.detail = none := by
      rcases List.mem_mapIdx.mp hentry with ⟨i, hi, rfl⟩
      match i, hi with
      | 0, _ => exact ⟨rfl, rfl⟩
      | 1, _ => exact ⟨rfl, rfl⟩
    apply AuditEntry.fits_iff_mentions
    -- the search is plain letters, without a wildcard
    · intro c hc
      have hplain : c = 'N' ∨ c = 'O' ∨ c = 'T' ∨ c = 'E' := by simpa using hc
      rcases hplain with rfl | rfl | rfl | rfl <;> exact ⟨by decide, by decide, by decide⟩
    · rfl
    · intro s hs
      rw [hname.1, hname.2] at hs
      rcases hs with hs | hs
      · cases hs
        exact ⟨rfl, by decide⟩
      · cases hs
  -- the parts of plain reading, over the two entries of the log
  constructor
  · intro text htext _ _ _
    cases htext
    decide
  · intro text htext entry hentry _ hfits
    exact (halike text htext entry hentry).mp hfits
  · intro text htext entry hentry _ hmentions
    exact (halike text htext entry hentry).mpr hmentions
  · apply List.Pairwise.sublist List.filter_sublist
    decide
  · intro hsize
    cases hsize

/-- Two deletions of different seconds, found by a text in capitals. -/
theorem pagesComplete_note :
    PagesComplete [deletion 0, deletion 1] (deletions (some "NOTE")) Sample.instant := by
  have hclock : ClockForward [deletion 0, deletion 1] := by
    unfold ClockForward
    decide
  exact (pagesComplete_iff hclock).mpr readsPlainly

end

end SameSecond

end OakKeyring
