import FleetControl.Proofs.Sifting
import FleetControl.Proofs.Text.Trimming
import FleetControl.Proofs.Variables

/-!
# The environments of the fleet

The list of environments is cut at its commas, and the items are taken one after the other (`Settings.takeItem`). What is taken are the
names that trimming leaves of the items, each once and in the order in which they first occur (`Settings.parseEnvironments_eq`). The
other way round, a list of plain names may be spelled in many ways: with blanks around its items, with blank items, and with items that
repeat a name from before (`Settings.Spells`). A text is taken for a list of names just where it spells them
(`Settings.parseEnvironments_eq_iff`). Settings that are accepted have the environments that their variable lists
(`Settings.environments_of_csv`).
-/

namespace FleetControl

/-! ## Items between commas -/

/-- Cutting at a separator is what the library does. -/
theorem Text.pieces_eq_splitOn {α : Type} [DecidableEq α] (separator : α) (as : List α) :
    pieces separator as = as.splitOn separator := by
  induction as with
  | nil => rfl
  | cons a as ih =>
    rw [pieces, ih, List.splitOn_cons_eq_if_modifyHead]
    simp only [beq_iff_eq]
    split
    · rfl
    · cases hpieces : as.splitOn separator with
      | nil => exact absurd hpieces (List.splitOn_ne_nil separator as)
      | cons piece more => rfl

/-- No piece holds the separator. -/
theorem Text.not_mem_of_mem_pieces {α : Type} [DecidableEq α] {separator : α} {as piece : List α}
    (h : piece ∈ pieces separator as) : separator ∉ piece := by
  induction as generalizing piece with
  | nil =>
    rw [pieces, List.mem_singleton] at h
    exact h ▸ List.not_mem_nil
  | cons a as ih =>
    rw [pieces] at h
    split at h
    · rcases List.mem_cons.mp h with rfl | h
      · exact List.not_mem_nil
      · exact ih h
    · rename_i ha
      split at h
      · rw [List.mem_singleton.mp h]
        exact fun hmem => ha (List.mem_singleton.mp hmem).symm
      · rename_i first more hpieces
        rw [hpieces] at ih
        rcases List.mem_cons.mp h with rfl | h
        · exact List.not_mem_cons_of_ne_of_not_mem (Ne.symm ha) (ih List.mem_cons_self)
        · exact ih (List.mem_cons_of_mem _ h)

namespace Settings

/-- The items of a list between commas, as they stand in it. -/
def itemsOf (csv : String) : List String := (Text.pieces ',' csv.toList).map String.ofList

/-- The names that trimming leaves of the items, without the empty ones. -/
def namesIn (items : List String) : List String := (items.map Text.trim).filter (· ≠ "")

theorem namesIn_append (items more : List String) : namesIn (items ++ more) = namesIn items ++ namesIn more := by
  rw [namesIn, List.map_append, List.filter_append]
  rfl

theorem itemsOf_ne_nil (csv : String) : itemsOf csv ≠ [] := by
  rw [itemsOf, Text.pieces_eq_splitOn, Ne, List.map_eq_nil_iff]
  exact List.splitOn_ne_nil ',' csv.toList

theorem not_comma_of_mem_itemsOf {csv item : String} (h : item ∈ itemsOf csv) : ',' ∉ item.toList := by
  obtain ⟨piece, hpiece, rfl⟩ := List.mem_map.mp h
  rw [String.toList_ofList]
  exact Text.not_mem_of_mem_pieces hpiece

/-- The items with commas in between are the list. -/
theorem intercalate_itemsOf (csv : String) : ",".intercalate (itemsOf csv) = csv := by
  have hpieces : (itemsOf csv).map String.toList = csv.toList.splitOn ',' := by
    rw [itemsOf, Text.pieces_eq_splitOn, List.map_map]
    exact (List.map_congr_left fun piece _ => String.toList_ofList).trans (List.map_id _)
  apply String.toList_injective
  rw [String.toList_intercalate, hpieces]
  exact List.intercalate_splitOn ','

/-- Texts without a comma are the items of the list that they make. -/
theorem itemsOf_intercalate {items : List String} (hne : items ≠ []) (hcomma : ∀ item ∈ items, ',' ∉ item.toList) :
    itemsOf (",".intercalate items) = items := by
  have hpieces : Text.pieces ',' (",".intercalate items).toList = items.map String.toList := by
    rw [Text.pieces_eq_splitOn, String.toList_intercalate]
    refine List.splitOn_intercalate ',' ?_ (by simpa using hne)
    intro cs hcs
    obtain ⟨item, hitem, rfl⟩ := List.mem_map.mp hcs
    exact hcomma item hitem
  rw [itemsOf, hpieces, List.map_map]
  exact (List.map_congr_left fun item _ => String.ofList_toList).trans (List.map_id _)

/-! ## What is taken -/

/-- Takes the name that trimming leaves of an item, unless it is empty or was taken before. -/
def takeItem (taken : List String) (item : String) : List String :=
  if Text.trim item ≠ "" ∧ Text.trim item ∉ taken then taken ++ [Text.trim item] else taken

theorem parseEnvironments_eq_foldl (csv : String) : parseEnvironments csv = (itemsOf csv).foldl takeItem [] := by
  rw [itemsOf, List.foldl_map]
  rfl

/-- The names in the items are taken, each where it first occurs. -/
theorem foldl_takeItem (items : List String) : items.foldl takeItem [] = (namesIn items).eraseDups := by
  induction items using List.reverseRecOn with
  | nil => rfl
  | append_singleton items item ih =>
    rw [List.foldl_append, List.foldl_cons, List.foldl_nil, ih, takeItem, namesIn_append]
    by_cases hblank : Text.trim item = ""
    · have hnone : namesIn [item] = [] := by simp [namesIn, hblank]
      rw [hnone, List.append_nil, if_neg fun h => h.1 hblank]
    · have hone : namesIn [item] = [Text.trim item] := by simp [namesIn, hblank]
      rw [hone, eraseDups_append_singleton]
      by_cases hagain : Text.trim item ∈ namesIn items
      · rw [if_pos hagain, if_neg fun h => h.2 (List.mem_eraseDups.mpr hagain)]
      · rw [if_neg hagain, if_pos ⟨hblank, fun h => hagain (List.mem_eraseDups.mp h)⟩]

theorem parseEnvironments_eq (csv : String) : parseEnvironments csv = (namesIn (itemsOf csv)).eraseDups := by
  rw [parseEnvironments_eq_foldl, foldl_takeItem]

theorem mem_parseEnvironments {csv name : String} :
    name ∈ parseEnvironments csv ↔ name ≠ "" ∧ ∃ item ∈ itemsOf csv, Text.trim item = name := by
  rw [parseEnvironments_eq, List.mem_eraseDups, namesIn, List.mem_filter, List.mem_map, and_comm, decide_eq_true_iff]

/-! ## The spellings of a list -/

/-- Names that a list between commas can hold: distinct, none of them empty, trimmed, and without a comma. -/
structure Plain (names : List String) : Prop where
  nodup : names.Nodup
  ne_empty : ∀ name ∈ names, name ≠ ""
  trimmed : ∀ name ∈ names, Text.trim name = name
  no_comma : ∀ name ∈ names, ',' ∉ name.toList

/-- The items spell the names in their order, after others were taken: with blanks around them, and with items in between that are
blank or repeat a name from before. -/
inductive Spells : (taken names items : List String) → Prop
  | done (taken : List String) : Spells taken [] []
  | name {taken names items : List String} {name item : String} (hpads : Text.Pads item.toList name.toList)
      (hrest : Spells (taken ++ [name]) names items) : Spells taken (name :: names) (item :: items)
  | blank {taken names items : List String} {item : String} (hpads : Text.Pads item.toList [])
      (hrest : Spells taken names items) : Spells taken names (item :: items)
  | again {taken names items : List String} {name item : String} (htaken : name ∈ taken)
      (hpads : Text.Pads item.toList name.toList) (hrest : Spells taken names items) : Spells taken names (item :: items)

variable {taken names items : List String}

theorem pads_trim (item : String) : Text.Pads item.toList (Text.trim item).toList := (Text.trim_eq_iff.mp rfl).2

/-- The names that are taken are those that the items spell. -/
theorem exists_spells_foldl (taken items : List String) :
    ∃ names, items.foldl takeItem taken = taken ++ names ∧ Spells taken names items := by
  induction items generalizing taken with
  | nil => exact ⟨[], (List.append_nil taken).symm, .done taken⟩
  | cons item items ih =>
    have hpads := pads_trim item
    rw [List.foldl_cons, takeItem]
    by_cases hblank : Text.trim item = ""
    · obtain ⟨names, hfold, hspells⟩ := ih taken
      rw [if_neg fun h => h.1 hblank]
      rw [hblank] at hpads
      exact ⟨names, hfold, .blank hpads hspells⟩
    · by_cases hagain : Text.trim item ∈ taken
      · obtain ⟨names, hfold, hspells⟩ := ih taken
        rw [if_neg fun h => h.2 hagain]
        exact ⟨names, hfold, .again hagain hpads hspells⟩
      · obtain ⟨names, hfold, hspells⟩ := ih (taken ++ [Text.trim item])
        rw [if_pos ⟨hblank, hagain⟩, hfold, List.append_assoc]
        exact ⟨Text.trim item :: names, rfl, .name hpads hspells⟩

/-- Items that spell plain names are taken for them. -/
theorem Spells.foldl_takeItem (h : Spells taken names items) (hplain : Plain (taken ++ names)) :
    items.foldl takeItem taken = taken ++ names := by
  induction h with
  | done taken => exact (List.append_nil taken).symm
  | @name taken names items name item hpads hrest ih =>
    have hmem : name ∈ taken ++ name :: names := List.mem_append_right _ List.mem_cons_self
    have htrim : Text.trim item = name := Text.trim_eq_iff.mpr ⟨hplain.trimmed name hmem, hpads⟩
    have hfree : name ∉ taken := fun htaken =>
      (List.nodup_append.mp hplain.nodup).2.2 name htaken name List.mem_cons_self rfl
    have hsplit : taken ++ name :: names = taken ++ [name] ++ names := by rw [List.append_assoc]; rfl
    rw [List.foldl_cons, takeItem, htrim, if_pos ⟨hplain.ne_empty name hmem, hfree⟩, hsplit]
    exact ih (hsplit ▸ hplain)
  | @blank taken names items item hpads hrest ih =>
    have htrim : Text.trim item = "" := Text.trim_eq_iff.mpr ⟨rfl, hpads⟩
    rw [List.foldl_cons, takeItem, if_neg fun h => h.1 htrim]
    exact ih hplain
  | @again taken names items name item htaken hpads hrest ih =>
    have htrim : Text.trim item = name :=
      Text.trim_eq_iff.mpr ⟨hplain.trimmed name (List.mem_append_left _ htaken), hpads⟩
    rw [List.foldl_cons, takeItem, if_neg fun h => h.2 (htrim ▸ htaken)]
    exact ih hplain

/-- Blanks around a text without a comma bring none. -/
theorem not_comma_of_pads {padded cs : List Char} (hpads : Text.Pads padded cs) (hcs : ',' ∉ cs) : ',' ∉ padded := by
  obtain ⟨before, after, hbefore, hafter, rfl⟩ := hpads
  have hcomma : Text.isBlank ',' ≠ true := by decide
  simp only [List.mem_append, not_or]
  exact ⟨⟨fun h => hcomma (hbefore _ h), hcs⟩, fun h => hcomma (hafter _ h)⟩

theorem Spells.no_comma (h : Spells taken names items) (hnames : ∀ name ∈ taken ++ names, ',' ∉ name.toList) :
    ∀ item ∈ items, ',' ∉ item.toList := by
  induction h with
  | done => exact nofun
  | @name taken names items name item hpads hrest ih =>
    have hsplit : taken ++ name :: names = taken ++ [name] ++ names := by rw [List.append_assoc]; rfl
    have hname : ',' ∉ name.toList := hnames name (List.mem_append_right _ List.mem_cons_self)
    exact List.forall_mem_cons.mpr ⟨not_comma_of_pads hpads hname, ih (hsplit ▸ hnames)⟩
  | blank hpads hrest ih => exact List.forall_mem_cons.mpr ⟨not_comma_of_pads hpads List.not_mem_nil, ih hnames⟩
  | again htaken hpads hrest ih =>
    exact List.forall_mem_cons.mpr ⟨not_comma_of_pads hpads (hnames _ (List.mem_append_left _ htaken)), ih hnames⟩

/-- Names spell themselves. -/
theorem spells_self (taken names : List String) : Spells taken names names := by
  induction names generalizing taken with
  | nil => exact .done taken
  | cons name names ih => exact .name ⟨[], [], nofun, nofun, by simp⟩ (ih _)

/-- The environments that are taken from a list are plain names. -/
theorem plain_parseEnvironments (csv : String) : Plain (parseEnvironments csv) where
  nodup := by
    rw [parseEnvironments_eq]
    exact nodup_of_pairwise_idxOf (pairwise_idxOf_eraseDups _)
  ne_empty name hname := (mem_parseEnvironments.mp hname).1
  trimmed name hname := by
    obtain ⟨-, item, -, rfl⟩ := mem_parseEnvironments.mp hname
    exact Text.trim_trim item
  no_comma name hname hcomma := by
    obtain ⟨-, item, hitem, rfl⟩ := mem_parseEnvironments.mp hname
    obtain ⟨before, after, -, -, hsplit⟩ := pads_trim item
    refine not_comma_of_mem_itemsOf hitem ?_
    rw [hsplit]
    exact List.mem_append_left _ (List.mem_append_right _ hcomma)

/-- A list is taken for names just where these are plain and its items spell them. -/
theorem parseEnvironments_eq_iff {csv : String} :
    parseEnvironments csv = names ↔ Plain names ∧ ∃ items, csv = ",".intercalate items ∧ Spells [] names items := by
  constructor
  · rintro rfl
    obtain ⟨names, hfold, hspells⟩ := exists_spells_foldl [] (itemsOf csv)
    rw [List.nil_append, ← parseEnvironments_eq_foldl] at hfold
    exact ⟨plain_parseEnvironments csv, itemsOf csv, (intercalate_itemsOf csv).symm, hfold ▸ hspells⟩
  · rintro ⟨hplain, items, rfl, hspells⟩
    have hfold : items.foldl takeItem [] = names := hspells.foldl_takeItem hplain
    by_cases hne : items = []
    · -- with no items the list is empty, which has one item, and that is blank
      rw [← hfold, hne]
      decide +kernel
    · rw [parseEnvironments_eq_foldl, itemsOf_intercalate hne (hspells.no_comma hplain.no_comma), hfold]

/-! ## Environments that are listed -/

/-- Of a list that is cut at its commas the trimmed names are taken, each once and in the order in which they first occur, and
accepted settings whose variable has the list know just these. A list is taken for names just where it spells them. -/
theorem environments_of_csv (csv : String) :
    let items := itemsOf csv
    let parsed := parseEnvironments csv
    (items ≠ [] ∧ (∀ item ∈ items, ',' ∉ item.toList) ∧ ",".intercalate items = csv) ∧
      ((∀ name, name ∈ parsed ↔ name ∈ namesIn items) ∧ parsed.Nodup ∧
        parsed.Pairwise fun a b => (namesIn items).idxOf a < (namesIn items).idxOf b) ∧
      (∀ names, parsed = names ↔ Plain names ∧ ∃ spelled, csv = ",".intercalate spelled ∧ Spells [] names spelled) ∧
      parseEnvironments (",".intercalate parsed) = parsed ∧
      ∀ resolve given settings, ofVariables resolve given = .ok settings →
        ∀ name, Text.lower name = "fleetd_environments" → (name, csv) ∈ given →
          settings.environments = parsed ∧ ∀ name, settings.hasEnvironment name = true ↔ name ∈ namesIn items := by
  intro items parsed
  have hparsed : parsed = (namesIn items).eraseDups := parseEnvironments_eq csv
  have hmem : ∀ name, name ∈ parsed ↔ name ∈ namesIn items := by
    intro name
    rw [hparsed, List.mem_eraseDups]
  have horder : parsed.Pairwise fun a b => (namesIn items).idxOf a < (namesIn items).idxOf b := by
    rw [hparsed]
    exact pairwise_idxOf_eraseDups (namesIn items)
  have hagain : parseEnvironments (",".intercalate parsed) = parsed :=
    parseEnvironments_eq_iff.mpr ⟨plain_parseEnvironments csv, parsed, rfl, spells_self [] parsed⟩
  refine ⟨⟨itemsOf_ne_nil csv, fun item => not_comma_of_mem_itemsOf, intercalate_itemsOf csv⟩,
    ⟨hmem, nodup_of_pairwise_idxOf horder, horder⟩, fun names => parseEnvironments_eq_iff, hagain, ?_⟩
  intro resolve given settings haccepted name hname hgiven
  have henvironments : settings.environments = parsed := environments_of_accepted haccepted hname hgiven
  refine ⟨henvironments, fun name => ?_⟩
  rw [hasEnvironment, henvironments, List.contains_iff_mem, hmem]

/-- Settings are accepted whose variable, with its name in mixed case, spells three environments with blanks of several kinds, blank
items and repetitions. -/
theorem environments_of_spelled_csv :
    let csv := " prod, dev ,,prod,\u2003,\tstaging\u00A0,dev ,"
    let resolve : Resolver := .ofHosts [("localhost", [.v4 [127, 0, 0, 1]])]
    let given := [("FLEETD_DATABASE_URL", "postgres://h/db"), ("FLEETD_LISTEN_HOST", "localhost"), ("Fleetd_Environments", csv)]
    ∃ settings, ofVariables resolve given = .ok settings ∧
      parseEnvironments csv = ["prod", "dev", "staging"] ∧ settings.hasEnvironment "dev" = true ∧
      settings.hasEnvironment " dev " = false := by
  intro csv resolve given
  let settings : Settings := { embedded ["prod", "dev", "staging"] with
    listen := ⟨.v4 [127, 0, 0, 1], 8490⟩, databaseUrl := "postgres://h/db", maxPoolSize := 10, applySchema := true }
  have haccepted : ofVariables resolve given = .ok settings := by decide +kernel
  have hname : Text.lower "Fleetd_Environments" = "fleetd_environments" := by decide +kernel
  obtain ⟨-, -, -, -, haccepts⟩ := environments_of_csv csv
  obtain ⟨henvironments, hknows⟩ := haccepts resolve given settings haccepted "Fleetd_Environments" hname (by simp [given])
  refine ⟨settings, haccepted, henvironments.symm, (hknows "dev").mpr (by decide +kernel), ?_⟩
  rw [← Bool.not_eq_true, hknows]
  decide +kernel

end Settings

end FleetControl
