import OakKeyring.ImportExport.Values

/-!
# What the parsers carry over

Every format fills the same five fields. A value of an item is in one of them, if it is not among
those that are dropped.
-/

namespace OakKeyring

/-! ## Field maps -/

namespace FieldMap

variable {fields : FieldMap} {key : String}

def standardKeys : List String :=
  ["name", "username", "password", "url", "notes"]

/-- There are no other keys than the five that the parsers use. -/
def Standard (fields : FieldMap) : Prop :=
  ∀ key, key ∉ standardKeys → fields.lookup key = none

/-- The texts of the five fields. -/
def shown (fields : FieldMap) : List String :=
  standardKeys.map fields.text

theorem text_insert (fields : FieldMap) (key other value : String) :
    FieldMap.text (fields.insert key value) other =
      if other = key then value else fields.text other := by
  unfold FieldMap.text
  by_cases hsame : other = key
  · rw [if_pos hsame, hsame, AList.lookup_insert]
    rfl
  · rw [if_neg hsame, AList.lookup_insert_ne hsame]

theorem text_insertNonEmpty (fields : FieldMap) (key other value : String) :
    FieldMap.text (fields.insertNonEmpty key value) other =
      if other = key ∧ value ≠ "" then value else fields.text other := by
  unfold FieldMap.insertNonEmpty
  by_cases hempty : value = ""
  · simp [hempty]
  · simp [hempty, text_insert]

theorem text_singleton (key other value : String) :
    FieldMap.text (AList.singleton key value) other = if other = key then value else "" := by
  calc FieldMap.text (AList.singleton key value) other
      = FieldMap.text ((∅ : FieldMap).insert key value) other := by
        rw [AList.insert_empty]
    _ = if other = key then value else "" := text_insert ∅ key other value

theorem standard_empty : Standard ∅ := by
  intro key _
  rfl

theorem Standard.insert (h : fields.Standard) (hkey : key ∈ standardKeys) (value : String) :
    Standard (fields.insert key value) := by
  intro other hother
  have hne : other ≠ key := by
    intro heq
    rw [heq] at hother
    exact hother hkey
  rw [AList.lookup_insert_ne hne]
  exact h other hother

theorem Standard.insertNonEmpty (h : fields.Standard) (hkey : key ∈ standardKeys)
    (value : String) : Standard (fields.insertNonEmpty key value) := by
  unfold FieldMap.insertNonEmpty
  split
  · exact h
  · exact h.insert hkey value

theorem standard_of {entries : List (String × String)}
    (h : ∀ e ∈ entries, e.1 ∈ standardKeys) : Standard (.of entries) := by
  have hgen : ∀ (rest : List (String × String)) (fields : FieldMap), fields.Standard →
      (∀ e ∈ rest, e.1 ∈ standardKeys) →
        Standard (rest.foldl (fun fields e => fields.insert e.1 e.2) fields) := by
    intro rest
    induction rest with
    | nil => exact fun _ hfields _ => hfields
    | cons e rest ih =>
        intro fields hfields hall
        exact ih _ (hfields.insert (hall e List.mem_cons_self) e.2) fun other hother =>
          hall other (List.mem_cons_of_mem _ hother)
  exact hgen entries ∅ standard_empty h

end FieldMap

/-! ## Values and texts -/

theorem getD_of_mem_toList {value : String} {o : Option String} (h : value ∈ o.toList) :
    o.getD "" = value := by
  rw [Option.mem_toList.mp h]
  rfl

/-- A value is dropped unless it is the one that is taken. -/
theorem mem_filter_or (taken : String) {value : String} {values : List String}
    (h : value ∈ values) :
    value ∈ values.filter (fun other => other ≠ taken) ∨ value = taken := by
  by_cases heq : value = taken
  · exact .inr heq
  · exact .inl (List.mem_filter.mpr ⟨h, by simpa using heq⟩)

theorem containsText_joinLines {part : String} {parts : List String} (h : part ∈ parts) :
    containsText (joinLines parts) part = true :=
  containsText_intercalate h

/-! ## Bitwarden -/

namespace Bitwarden

theorem containsText_fieldLine {field : BitwardenField} {value : String}
    (h : field.value = some value) : containsText (fieldLine field) value = true := by
  unfold fieldLine
  rw [h]
  exact containsText_append_right _ _

/-- The notes keep what they have, and get a line for each field. -/
theorem containsText_buildNotes (notes : Option String) (fields : Option (List BitwardenField)) :
    containsText (buildNotes notes fields) (notes.getD "") = true ∧
      ∀ field ∈ fields.getD [],
        containsText (buildNotes notes fields) (fieldLine field) = true := by
  -- a line that is appended keeps what is there
  have hstep : ∀ (result line : String),
      containsText ((if result = "" then result else result ++ "\n") ++ line) result = true := by
    intro result line
    split
    · exact containsText_append_left _ _
    · exact containsText_trans (containsText_append_left _ line) (containsText_append_left _ _)
  -- so a line stays in the notes from its field on
  have hgen : ∀ (rest : List BitwardenField) (start : String),
      containsText (rest.foldl (fun result field =>
          (if result = "" then result else result ++ "\n") ++ fieldLine field) start) start = true ∧
        ∀ field ∈ rest, containsText (rest.foldl (fun result field =>
          (if result = "" then result else result ++ "\n") ++ fieldLine field) start)
            (fieldLine field) = true := by
    intro rest
    induction rest with
    | nil =>
        intro start
        exact ⟨containsText_self start, fun _ hmem => nomatch hmem⟩
    | cons first rest ih =>
        intro start
        rcases ih ((if start = "" then start else start ++ "\n") ++ fieldLine first) with
          ⟨hkept, hlines⟩
        refine ⟨containsText_trans hkept (hstep start _), ?_⟩
        intro field hmem
        rcases List.mem_cons.mp hmem with heq | hrest
        · rw [heq]
          exact containsText_trans hkept (containsText_append_right _ _)
        · exact hlines field hrest
  exact hgen (fields.getD []) (notes.getD "")

variable {entry : BitwardenEntry} {index : Nat} {parsed : ParsedItem} {value : String}

theorem urlOf_eq (entry : BitwardenEntry) :
    urlOf entry =
      (((entry.item.login.bind BitwardenLogin.uris).bind List.head?).bind id).getD "" := by
  unfold urlOf urisOf
  cases entry.item.login.bind BitwardenLogin.uris <;> rfl

/-- An item with a user name is a login. -/
theorem shown_of_parses (h : parseItem index entry.item = some parsed)
    (husername : parsed.fields.text "username" ≠ "") :
    parsed.fields.Standard ∧ parsed.fields.shown = texts entry := by
  unfold parseItem at h
  split at h
  · rw [← Option.some.inj h]
    refine ⟨FieldMap.standard_of (by simp [FieldMap.standardKeys]), ?_⟩
    simp [FieldMap.shown, FieldMap.standardKeys, parseLoginItem, FieldMap.of,
      FieldMap.text_insert, FieldMap.text_singleton, texts, usernameOf, passwordOf, urlOf_eq]
  · split at h
    · rw [← Option.some.inj h] at husername
      simp [parseSecureNoteItem, FieldMap.of, FieldMap.text_insert] at husername
    · cases h

theorem dropped_or_appears (h : value ∈ values entry) :
    value ∈ dropped entry ∨ Appears (texts entry) value := by
  have hnotes := containsText_buildNotes entry.item.notes entry.item.fields
  have hwhole : Appears (texts entry) (buildNotes entry.item.notes entry.item.fields) :=
    appears_of_mem (by simp [texts])
  unfold values at h
  simp only [List.mem_append] at h
  rcases h with (((((hname | husername) | hpassword) | hurl) | htotp) | hbase) | hcustom
  · right
    rw [← getD_of_mem_toList hname]
    exact appears_of_mem (by simp [texts])
  · right
    rw [← getD_of_mem_toList husername]
    exact appears_of_mem (by simp [texts])
  · right
    rw [← getD_of_mem_toList hpassword]
    exact appears_of_mem (by simp [texts])
  · rcases mem_filter_or (urlOf entry) hurl with hlost | htaken
    · exact .inl (List.mem_append_right _ hlost)
    · right
      rw [htaken]
      exact appears_of_mem (by simp [texts])
  · exact .inl (List.mem_append_left _ htotp)
  · right
    rw [← getD_of_mem_toList hbase]
    exact hwhole.trans hnotes.1
  · right
    rcases List.mem_filterMap.mp hcustom with ⟨field, hfield, hvalue⟩
    exact (hwhole.trans (hnotes.2 field hfield)).trans (containsText_fieldLine hvalue)

theorem mem_values_of_dropped (h : value ∈ dropped entry) : value ∈ values entry := by
  unfold values
  simp only [List.mem_append]
  rcases List.mem_append.mp h with htotp | hurl
  · exact .inl (.inl (.inr htotp))
  · exact .inl (.inl (.inl (.inr (List.mem_filter.mp hurl).1)))

end Bitwarden

/-! ## 1Password -/

namespace OnePux

variable {item : OnePuxItem} {index : Nat} {parsed : ParsedItem} {value : String}

theorem shown_of_parses (h : parseItem index item = some parsed)
    (husername : parsed.fields.text "username" ≠ "") :
    parsed.fields.Standard ∧ parsed.fields.shown = texts item := by
  unfold parseItem at h
  split at h
  · cases h
  · split at h
    · rw [← Option.some.inj h]
      refine ⟨?_, ?_⟩
      · refine FieldMap.Standard.insertNonEmpty (FieldMap.Standard.insertNonEmpty
          (FieldMap.standard_of ?_) ?_ _) ?_ _
        · simp [FieldMap.standardKeys]
        · simp [FieldMap.standardKeys]
        · simp [FieldMap.standardKeys]
      · simp [FieldMap.shown, FieldMap.standardKeys, parseLoginItem, parsedWith, FieldMap.of,
          FieldMap.text_insert, FieldMap.text_insertNonEmpty, FieldMap.text_singleton, texts,
          usernameOf]
    · split at h
      · rw [← Option.some.inj h] at husername
        simp [parseSecureNoteItem, parsedWith, FieldMap.of, FieldMap.text_insertNonEmpty,
          FieldMap.text_singleton] at husername
      · cases h

/-- The line of a field contains the text that is extracted. -/
theorem containsText_sectionLine {field : OnePuxSectionField} {line : String}
    (hline : sectionLine field = some line)
    (hvalue : extractSectionValue field.value = some value) :
    containsText line value = true := by
  unfold sectionLine at hline
  rw [hvalue] at hline
  dsimp only at hline
  split at hline
  · cases hline
  · split at hline
    · rw [← Option.some.inj hline]
      exact containsText_append_right _ _
    · rcases Option.map_eq_some_iff.mp hline with ⟨title, -, htext⟩
      rw [← htext]
      exact containsText_append_right _ _

theorem dropped_or_appears (h : value ∈ values item) :
    value = "" ∨ value ∈ dropped item ∨ Appears (texts item) value := by
  -- what the notes show, the imported item shows
  have hwhole : Appears (texts item) (buildNotes item.details) :=
    appears_of_mem (by simp [texts])
  unfold values at h
  simp only [List.mem_append] at h
  rcases h with (((htitle | hlogin) | hurl) | hnotes) | hsection
  -- the title becomes the name
  · right
    right
    have htaken : titleOf item = value := getD_of_mem_toList htitle
    rw [← htaken]
    exact appears_of_mem (by simp [texts])
  -- a designated field is the username or the password, or it is dropped
  · by_cases htaken : value ≠ usernameOf item ∧ value ≠ (item.details.map passwordOf).getD ""
    · right
      left
      unfold dropped
      simp only [List.mem_append]
      exact .inl (.inl (List.mem_filter.mpr ⟨hlogin, by simpa using htaken⟩))
    · right
      right
      by_cases husername : value = usernameOf item
      · rw [husername]
        exact appears_of_mem (by simp [texts])
      · have hpassword : value = (item.details.map passwordOf).getD "" := by
          by_contra hne
          exact htaken ⟨husername, hne⟩
        rw [hpassword]
        exact appears_of_mem (by simp [texts])
  · right
    -- a link becomes the address, or it is dropped
    rcases mem_filter_or (extractUrl item.overview) hurl with hlost | htaken
    · left
      unfold dropped
      simp only [List.mem_append]
      exact .inl (.inr hlost)
    · right
      rw [htaken]
      exact appears_of_mem (by simp [texts])
  · by_cases hempty : value = ""
    · exact .inl hempty
    · right
      right
      apply hwhole.trans
      -- the plain notes come first in the notes
      cases hdetails : item.details with
      | none =>
          rw [hdetails] at hnotes
          cases hnotes
      | some details =>
          rw [hdetails] at hnotes
          have hplain : details.notesPlain = some value := Option.mem_toList.mp hnotes
          unfold buildNotes
          apply containsText_joinLines
          rw [hplain]
          apply List.mem_append_left
          simp [hempty]
  · right
    -- a field of a section becomes a line of the notes, or it is dropped
    rcases List.mem_flatMap.mp hsection with ⟨field, hfield, htext⟩
    by_cases hlost : value ∈ sectionDropped field
    · left
      unfold dropped
      simp only [List.mem_append]
      exact .inr (List.mem_flatMap.mpr ⟨field, hfield, hlost⟩)
    · right
      have hkept : (sectionLine field).isSome ∧ extractSectionValue field.value = some value := by
        have hnot : ¬ ((sectionLine field).isNone = true ∨
            extractSectionValue field.value ≠ some value) := by
          intro h
          exact hlost (List.mem_filter.mpr ⟨htext, by simpa using h⟩)
        rcases not_or.mp hnot with ⟨hline, hextracted⟩
        exact ⟨by simpa [Option.isSome_iff_ne_none] using hline, not_not.mp hextracted⟩
      rcases Option.isSome_iff_exists.mp hkept.1 with ⟨line, hline⟩
      have hcontains := containsText_sectionLine hline hkept.2
      refine (hwhole.trans ?_).trans hcontains
      cases hdetails : item.details with
      | none =>
          rw [hdetails] at hfield
          cases hfield
      | some details =>
          rw [hdetails] at hfield
          unfold buildNotes
          apply containsText_joinLines
          apply List.mem_append_right
          rcases List.mem_flatMap.mp hfield with ⟨fields, hfields, hmem⟩
          exact List.mem_flatMap.mpr ⟨fields, hfields, List.mem_filterMap.mpr ⟨field, hmem, hline⟩⟩

theorem mem_values_of_dropped (h : value ∈ dropped item) : value ∈ values item := by
  unfold values
  simp only [List.mem_append]
  unfold dropped at h
  simp only [List.mem_append] at h
  rcases h with (hlogin | hurl) | hsection
  · exact .inl (.inl (.inl (.inr (List.mem_filter.mp hlogin).1)))
  · exact .inl (.inl (.inr (List.mem_filter.mp hurl).1))
  · rcases List.mem_flatMap.mp hsection with ⟨field, hfield, hlost⟩
    exact .inr (List.mem_flatMap.mpr ⟨field, hfield, (List.mem_filter.mp hlost).1⟩)

end OnePux

/-! ## OpVault -/

namespace OpVault

variable {printValue : JsonValue → String} {fields : FieldMap} {field : OpVaultSectionField}
  {start : Sections} {value text : String}

/-- What a use adds to what was found. -/
def SectionUse.addTo (start : Sections) : SectionUse → Sections
  | username value => { start with username := value }
  | password value => { start with password := value }
  | url value => { start with url := value }
  | line text => { start with notes := start.notes ++ [text] }
  | nothing => start

theorem readSection_eq (printValue : JsonValue → String) (fields : FieldMap) (start : Sections)
    (field : OpVaultSectionField) :
    readSection printValue fields start field = (useOf printValue fields field).addTo start := by
  cases hn : field.n with
  | none => simp only [readSection, useOf, hn, SectionUse.addTo]
  | some n =>
      cases hv : field.v with
      | none => simp only [readSection, useOf, hn, hv, SectionUse.addTo]
      | some v =>
          simp only [readSection, useOf, hn, hv]
          cases field.t <;> split_ifs <;> rfl

/-- A field of a section stands for one of the login only where the login has none. -/
def SectionUse.Unset (fields : FieldMap) : SectionUse → Prop
  | username _ => (fields.lookup "username").isNone
  | password _ => (fields.lookup "password").isNone
  | url _ => (fields.lookup "url").isNone
  | line _ => True
  | nothing => True

theorem unset_useOf (printValue : JsonValue → String) (fields : FieldMap)
    (field : OpVaultSectionField) : (useOf printValue fields field).Unset fields := by
  cases hn : field.n with
  | none => simp only [useOf, hn, SectionUse.Unset]
  | some n =>
      cases hv : field.v with
      | none => simp only [useOf, hn, hv, SectionUse.Unset]
      | some v =>
          simp only [useOf, hn, hv]
          split_ifs with hempty husername hpassword hurl htotp
          · trivial
          · exact husername.2
          · exact hpassword.2
          · exact hurl.2
          · trivial
          · cases field.t <;> trivial

/-- The line of a text contains it. -/
theorem containsText_line (huse : useOf printValue fields field = .line text)
    (hvalue : field.v.bind JsonValue.asStr = some value) : containsText text value = true := by
  rcases Option.bind_eq_some_iff.mp hvalue with ⟨v, hv, hstr⟩
  cases hn : field.n with
  | none =>
      simp only [useOf, hn] at huse
      cases huse
  | some n =>
      simp only [useOf, hn, hv, hstr, Option.getD_some] at huse
      split_ifs at huse with hempty husername hpassword hurl htotp
      · rw [← SectionUse.line.inj huse]
        exact containsText_append_right _ _
      · cases htitle : field.t with
        | none =>
            rw [htitle] at huse
            cases huse
        | some title =>
            rw [htitle] at huse
            rw [← SectionUse.line.inj huse]
            exact containsText_append_right _ _

/-- What a run over the sections leaves of what there was, and adds for its fields. -/
structure Reads (printValue : JsonValue → String) (fields : FieldMap)
    (read : List OpVaultSectionField) (start done : Sections) : Prop where
  notes : ∀ text ∈ start.notes, text ∈ done.notes
  lines : ∀ field ∈ read, ∀ text, useOf printValue fields field = .line text → text ∈ done.notes
  username : (fields.lookup "username").isSome → done.username = start.username
  password : (fields.lookup "password").isSome → done.password = start.password
  url : (fields.lookup "url").isSome → done.url = start.url

theorem reads_foldl (printValue : JsonValue → String) (fields : FieldMap)
    (read : List OpVaultSectionField) (start : Sections) :
    Reads printValue fields read start (read.foldl (readSection printValue fields) start) := by
  induction read generalizing start with
  | nil => exact ⟨fun _ h => h, fun _ h => (nomatch h), fun _ => rfl, fun _ => rfl, fun _ => rfl⟩
  | cons first rest ih =>
      have hrest := ih (readSection printValue fields start first)
      rw [readSection_eq] at hrest
      rw [List.foldl_cons, readSection_eq]
      have hset : ∀ {o : Option String}, o.isSome → o.isNone = true → False := by
        intro o hsome hnone
        cases o <;> simp_all
      have hunset := unset_useOf printValue fields first
      -- only a line adds to the notes
      have hlater : (∀ text, useOf printValue fields first ≠ .line text) →
          ∀ field ∈ first :: rest, ∀ text, useOf printValue fields field = .line text →
            text ∈ (rest.foldl (readSection printValue fields)
              ((useOf printValue fields first).addTo start)).notes := by
        intro hnot field hmem text hline
        rcases List.mem_cons.mp hmem with heq | hmem
        · rw [heq] at hline
          exact absurd hline (hnot text)
        · exact hrest.lines field hmem text hline
      cases huse : useOf printValue fields first with
      | username value =>
          rw [huse] at hrest hunset hlater
          exact ⟨hrest.notes, hlater (by simp), fun h => (hset h hunset).elim, hrest.password,
            hrest.url⟩
      | password value =>
          rw [huse] at hrest hunset hlater
          exact ⟨hrest.notes, hlater (by simp), hrest.username, fun h => (hset h hunset).elim,
            hrest.url⟩
      | url value =>
          rw [huse] at hrest hunset hlater
          exact ⟨hrest.notes, hlater (by simp), hrest.username, hrest.password,
            fun h => (hset h hunset).elim⟩
      | line text =>
          rw [huse] at hrest
          refine ⟨?_, ?_, hrest.username, hrest.password, hrest.url⟩
          · intro other hother
            exact hrest.notes other (List.mem_append_left _ hother)
          · intro field hmem other hline
            rcases List.mem_cons.mp hmem with heq | hmem
            · rw [heq, huse] at hline
              rw [← SectionUse.line.inj hline]
              exact hrest.notes text (List.mem_append_right _ (List.mem_singleton_self text))
            · exact hrest.lines field hmem other hline
      | nothing =>
          rw [huse] at hrest hlater
          exact ⟨hrest.notes, hlater (by simp), hrest.username, hrest.password, hrest.url⟩

variable {entry : OpVaultEntry} {parsed : ParsedItem}

theorem reads_found (printValue : JsonValue → String) (entry : OpVaultEntry) :
    Reads printValue (ownFields entry) entry.details.sections.flatten
      { username := ""
        password := ""
        url := ""
        notes := (entry.details.notesPlain.filter fun notes => notes ≠ "").toList }
      (found printValue entry) :=
  reads_foldl _ _ _ _

/-- The item of an entry. -/
theorem fields_of_parses (h : parseEntry printValue entry = some parsed) :
    parsed.fields =
      ((((ownFields entry).insertNonEmpty "username"
        (found printValue entry).username).insertNonEmpty "password"
          (found printValue entry).password).insertNonEmpty "url"
            (found printValue entry).url).insertNonEmpty "notes"
              (joinLines (found printValue entry).notes) := by
  unfold parseEntry at h
  dsimp only at h
  split at h
  · rw [← Option.some.inj h]
    rfl
  · cases h

/-- The own fields are set where there is a text for them. -/
theorem isSome_ownFields (entry : OpVaultEntry) :
    (designated entry.details.fields "username" ≠ "" →
        ((ownFields entry).lookup "username").isSome) ∧
      (passwordOf entry.details ≠ "" → ((ownFields entry).lookup "password").isSome) ∧
        (urlOf entry ≠ "" → ((ownFields entry).lookup "url").isSome) := by
  have hset : ∀ {o : Option String}, o.getD "" ≠ "" → o.isSome := by
    intro o hne
    cases o with
    | none => exact absurd rfl hne
    | some value => rfl
  refine ⟨fun h => hset ?_, fun h => hset ?_, fun h => hset ?_⟩
  · change FieldMap.text (ownFields entry) "username" ≠ ""
    simp [ownFields, FieldMap.text_insertNonEmpty, h]
  · change FieldMap.text (ownFields entry) "password" ≠ ""
    simp [ownFields, FieldMap.text_insertNonEmpty, h]
  · change FieldMap.text (ownFields entry) "url" ≠ ""
    simp [ownFields, FieldMap.text_insertNonEmpty, h]

/-- A text of the login, or one that was found where the login has none. -/
theorem orSection_eq {own found : String} (h : own ≠ "" → found = "") :
    orSection own found = if found ≠ "" then found else own := by
  unfold orSection
  by_cases hown : own = ""
  · by_cases hfound : found = ""
    · simp [hown, hfound]
    · simp [hown, hfound]
  · simp [hown, h hown]

theorem shown_of_parses (h : parseEntry printValue entry = some parsed) :
    parsed.fields.Standard ∧ parsed.fields.shown = texts printValue entry := by
  have hreads := reads_found printValue entry
  have hset := isSome_ownFields entry
  rw [fields_of_parses h]
  constructor
  · have hown : (ownFields entry).Standard := by
      refine FieldMap.Standard.insertNonEmpty (FieldMap.Standard.insertNonEmpty
        (FieldMap.Standard.insertNonEmpty (FieldMap.standard_of ?_) ?_ _) ?_ _) ?_ _
      all_goals simp [FieldMap.standardKeys]
    refine FieldMap.Standard.insertNonEmpty (FieldMap.Standard.insertNonEmpty
      (FieldMap.Standard.insertNonEmpty (FieldMap.Standard.insertNonEmpty hown ?_ _) ?_ _) ?_ _)
        ?_ _
    all_goals simp [FieldMap.standardKeys]
  · have husername := orSection_eq fun hne => hreads.username (hset.1 hne)
    have hpassword := orSection_eq fun hne => hreads.password (hset.2.1 hne)
    have hurl := orSection_eq fun hne => hreads.url (hset.2.2 hne)
    have hself : ∀ own : String, (if own = "" then "" else own) = own := by
      intro own
      split
      · rename_i hempty
        exact hempty.symm
      · rfl
    unfold texts
    rw [husername, hpassword, hurl]
    simp [FieldMap.shown, FieldMap.standardKeys, FieldMap.of, FieldMap.text_insertNonEmpty,
      FieldMap.text_singleton, ownFields, hself]

/-- A text of a section that is not dropped. -/
theorem section_appears (hfield : field ∈ entry.details.sections.flatten)
    (hvalue : value ∈ sectionTexts field) (hkept : value ∉ sectionDropped printValue entry field) :
    Appears (texts printValue entry) value := by
  have hreads := reads_found printValue entry
  have hset := isSome_ownFields entry
  -- a value that is taken over is the one that fills its place
  have htaken : ∀ {taken : String},
      value ∉ (sectionTexts field).filter (fun other => other ≠ taken) → value = taken := by
    intro taken hnot
    rcases mem_filter_or taken hvalue with hlost | heq
    · exact absurd hlost hnot
    · exact heq
  -- a place that is filled is not filled again
  have hempty : ∀ {own : String} {o : Option String}, (own ≠ "" → o.isSome) → o.isNone = true →
      own = "" := by
    intro own o hsome hnone
    by_contra hne
    have hboth := hsome hne
    cases o <;> simp_all
  have hunset := unset_useOf printValue (ownFields entry) field
  unfold sectionDropped at hkept
  -- what the field is used for
  cases huse : useOf printValue (ownFields entry) field with
  | username taken =>
      rw [huse] at hkept hunset
      have hown := hempty hset.1 (hunset)
      rw [htaken hkept]
      apply appears_of_mem
      simp [texts, orSection, hown]
  | password taken =>
      rw [huse] at hkept hunset
      have hown := hempty hset.2.1 (hunset)
      rw [htaken hkept]
      apply appears_of_mem
      simp [texts, orSection, hown]
  | url taken =>
      rw [huse] at hkept hunset
      have hown := hempty hset.2.2 (hunset)
      rw [htaken hkept]
      apply appears_of_mem
      simp [texts, orSection, hown]
  | line text =>
      rw [huse] at hkept
      dsimp only at hkept
      -- a line of the notes shows the text of its value
      split at hkept
      · rename_i hstr
        rcases Option.isSome_iff_exists.mp hstr with ⟨s, hs⟩
        have hsame : value = s := by
          rcases Option.bind_eq_some_iff.mp hs with ⟨v, hv, hvs⟩
          unfold sectionTexts at hvalue
          rw [hv] at hvalue
          cases v with
          | string s' =>
              have heq : s' = s := Option.some.inj hvs
              rw [← heq]
              simpa [JsonValue.texts] using hvalue
          | _ => cases hvs
        rw [hsame]
        have hnotes : Appears (texts printValue entry) (joinLines (found printValue entry).notes) :=
          appears_of_mem (by simp [texts])
        exact (hnotes.trans (containsText_joinLines (hreads.lines field hfield text huse))).trans
          (containsText_line huse hs)
      · exact absurd hvalue hkept
  | nothing =>
      rw [huse] at hkept
      exact absurd hvalue hkept

theorem dropped_or_appears (h : value ∈ values entry) :
    value = "" ∨ value ∈ dropped printValue entry ∨ Appears (texts printValue entry) value := by
  have hreads := reads_found printValue entry
  unfold values at h
  simp only [List.mem_cons, List.mem_append] at h
  -- nothing is lost of an empty value
  by_cases hempty : value = ""
  · exact .inl hempty
  · right
    -- what is not listed as dropped has to appear
    by_cases hlost : value ∈ dropped printValue entry
    · exact .inl hlost
    · right
      unfold dropped at hlost
      simp only [List.mem_append, not_or] at hlost
      rcases h with htitle | ((hlogin | hurl) | hnotes) | hsection
      · rw [htitle]
        exact appears_of_mem (by simp [texts])
      · by_cases husername : value = designated entry.details.fields "username"
        · have hne : designated entry.details.fields "username" ≠ "" := husername ▸ hempty
          rw [husername]
          apply appears_of_mem
          simp [texts, orSection, hne]
        · have hpassword : value = passwordOf entry.details := by
            by_contra hne
            exact hlost.1.1 (List.mem_filter.mpr ⟨hlogin, by simp [husername, hne]⟩)
          have hne : passwordOf entry.details ≠ "" := hpassword ▸ hempty
          rw [hpassword]
          apply appears_of_mem
          simp [texts, orSection, hne]
      · rcases mem_filter_or (urlOf entry) hurl with hother | htaken
        · exact absurd hother hlost.1.2
        · have hne : urlOf entry ≠ "" := htaken ▸ hempty
          rw [htaken]
          apply appears_of_mem
          simp [texts, orSection, hne]
      · have hplain : entry.details.notesPlain = some value := Option.mem_toList.mp hnotes
        have hmem : value ∈ (found printValue entry).notes := by
          apply hreads.notes
          rw [hplain]
          simp [hempty]
        have hwhole : Appears (texts printValue entry) (joinLines (found printValue entry).notes) :=
          appears_of_mem (by simp [texts])
        exact hwhole.trans (containsText_joinLines hmem)
      · rcases List.mem_flatMap.mp hsection with ⟨field, hfield, htext⟩
        refine section_appears hfield htext fun hdropped => ?_
        exact hlost.2 (List.mem_flatMap.mpr ⟨field, hfield, hdropped⟩)

theorem mem_values_of_dropped (h : value ∈ dropped printValue entry) : value ∈ values entry := by
  unfold values
  simp only [List.mem_cons, List.mem_append]
  unfold dropped at h
  simp only [List.mem_append] at h
  rcases h with (hlogin | hurl) | hsection
  · exact .inr (.inl (.inl (.inl (List.mem_filter.mp hlogin).1)))
  · exact .inr (.inl (.inl (.inr (List.mem_filter.mp hurl).1)))
  · rcases List.mem_flatMap.mp hsection with ⟨field, hfield, hlost⟩
    have htext : value ∈ sectionTexts field := by
      unfold sectionDropped at hlost
      split at hlost
      · exact (List.mem_filter.mp hlost).1
      · exact (List.mem_filter.mp hlost).1
      · exact (List.mem_filter.mp hlost).1
      · split at hlost
        · cases hlost
        · exact hlost
      · exact hlost
    exact .inr (.inr (List.mem_flatMap.mpr ⟨field, hfield, htext⟩))

end OpVault

/-! ## KeePass -/

namespace KeePass

variable {entry : KeePassEntry} {groupPath value : String}

theorem shown_entryToParsedItem (entry : KeePassEntry) (groupPath : String) :
    (entryToParsedItem entry groupPath).fields.Standard ∧
      (entryToParsedItem entry groupPath).fields.shown = texts entry := by
  refine ⟨FieldMap.standard_of (by simp [FieldMap.standardKeys]), ?_⟩
  simp [FieldMap.shown, FieldMap.standardKeys, entryToParsedItem, FieldMap.of,
    FieldMap.text_insert, FieldMap.text_singleton, texts]

/-- The notes contain those of the entry and its custom fields. -/
theorem containsText_notesOf (entry : KeePassEntry) :
    containsText (notesOf entry) (entry.fields.text KP_NOTES) = true ∧
      containsText (notesOf entry)
        (buildCustomNotes entry [KP_TITLE, KP_USERNAME, KP_PASSWORD, KP_URL, KP_NOTES]) = true := by
  unfold notesOf
  dsimp only
  split
  · rename_i hempty
    rw [hempty]
    exact ⟨containsText_self _, containsText_iff.mpr List.nil_infix⟩
  · split
    · rename_i hempty
      rw [hempty]
      exact ⟨containsText_iff.mpr List.nil_infix, containsText_self _⟩
    · exact ⟨containsText_trans (containsText_append_left _ _) (containsText_append_left _ _),
        containsText_append_right _ _⟩

/-- Every value of an entry is carried over. -/
theorem appears_of_mem_values (h : value ∈ values entry) : Appears (texts entry) value := by
  rcases List.mem_map.mp h with ⟨field, hfield, hvalue⟩
  have hnotes := containsText_notesOf entry
  have hwhole : Appears (texts entry) (notesOf entry) := appears_of_mem (by simp [texts])
  have htext : entry.fields.text field.1 = value := by
    have hlookup : entry.fields.lookup field.1 = some field.2 :=
      AList.mem_lookup_iff.mpr hfield
    unfold FieldMap.text
    rw [hlookup]
    exact hvalue
  by_cases hstandard : field.1 ∈ [KP_TITLE, KP_USERNAME, KP_PASSWORD, KP_URL, KP_NOTES]
  · rw [← htext]
    simp only [List.mem_cons, List.not_mem_nil, or_false] at hstandard
    rcases hstandard with hkey | hkey | hkey | hkey | hkey
    · exact appears_of_mem (by simp [texts, hkey])
    · exact appears_of_mem (by simp [texts, hkey])
    · exact appears_of_mem (by simp [texts, hkey])
    · exact appears_of_mem (by simp [texts, hkey])
    · rw [hkey]
      exact hwhole.trans hnotes.1
  · have hline : customLine field.1 field.2 ∈
        (entry.fields.entries.filter fun field =>
          field.1 ∉ [KP_TITLE, KP_USERNAME, KP_PASSWORD, KP_URL, KP_NOTES]).map fun field =>
            customLine field.1 field.2 :=
      List.mem_map_of_mem (List.mem_filter.mpr ⟨hfield, by simpa using hstandard⟩)
    rw [← hvalue]
    refine ((hwhole.trans hnotes.2).trans (containsText_joinLines hline)).trans ?_
    exact containsText_append_right _ _

end KeePass

/-! ## Every format -/

namespace ForeignItem

variable [Parsers] {item : ForeignItem} {parsed : ParsedItem}

/-- The five fields of an item with a user name. -/
theorem shown_of_parses (h : item.ParsesTo parsed)
    (husername : parsed.fields.text "username" ≠ "") :
    parsed.fields.Standard ∧ parsed.fields.shown = item.texts := by
  cases item with
  | bitwarden entry =>
      rcases h with ⟨index, hparsed⟩
      exact Bitwarden.shown_of_parses hparsed husername
  | onePux item =>
      rcases h with ⟨index, hparsed⟩
      exact OnePux.shown_of_parses hparsed husername
  | opVault entry => exact OpVault.shown_of_parses h
  | keePass entry =>
      rcases h with ⟨groupPath, hparsed⟩
      rw [← hparsed]
      exact KeePass.shown_entryToParsedItem entry groupPath

/-- A value that does not appear is among those that are dropped. -/
theorem dropped_or_appears {value : String} (h : value ∈ item.values) :
    value = "" ∨ value ∈ item.dropped ∨ Appears item.texts value := by
  cases item with
  | bitwarden entry => exact .inr (Bitwarden.dropped_or_appears h)
  | onePux item => exact OnePux.dropped_or_appears h
  | opVault entry => exact OpVault.dropped_or_appears h
  | keePass entry => exact .inr (.inr (KeePass.appears_of_mem_values h))

theorem mem_values_of_dropped {value : String} (h : value ∈ item.dropped) :
    value ∈ item.values := by
  cases item with
  | bitwarden entry => exact Bitwarden.mem_values_of_dropped h
  | onePux item => exact OnePux.mem_values_of_dropped h
  | opVault entry => exact OpVault.mem_values_of_dropped h
  | keePass entry => cases h

/-- The texts have every value of an item exactly when they have those that are dropped. -/
theorem appears_iff_covered :
    (∀ value ∈ item.values, value ≠ "" → Appears item.texts value) ↔ item.Covered := by
  constructor
  · intro hall value hvalue hne
    exact hall value (mem_values_of_dropped hvalue) hne
  · intro hcovered value hvalue hne
    rcases dropped_or_appears hvalue with hempty | hdropped | hshown
    · exact absurd hempty hne
    · exact hcovered value hdropped hne
    · exact hshown

end ForeignItem

end OakKeyring
