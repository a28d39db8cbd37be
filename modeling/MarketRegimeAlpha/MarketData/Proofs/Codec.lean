/-
What is published is loaded again, in either encoding, and published
again changes nothing.

# A selection

The bars of a partition have its symbol and its timeframe, so the filters
keep all the bars of a partition or none (`filter_bars`). A selection
reads the partitions that they keep, and the full load filters the bars:
both give the same.
-/
import MarketRegimeAlpha.MarketData.Proofs.Packages

namespace MarketRegimeAlpha.MarketData

open Lib List

variable {platform : Platform}

-- ==== selections

def keepsBar (symbols : Option (List String))
    (timeframes : Option (List Timeframe)) (bar : CanonicalMarketBar platform) :
    Bool :=
  symbols.all (bar.val.symbol ∈ ·) && timeframes.all (bar.val.timeframe ∈ ·)

def keepsPartition (symbols : Option (List String)) (timeframes : Option (List Timeframe))
    (part : MarketDataPartition platform) : Bool :=
  symbols.all (part.val.symbol ∈ ·) && timeframes.all (part.val.timeframe ∈ ·)

section Selection

variable {symbols : Option (List String)} {timeframes : Option (List Timeframe)}
  {dataset : MarketDataDatasetArtifact platform}

theorem keepsBar_eq {part : MarketDataPartition platform}
    {bar : CanonicalMarketBar platform} (hbar : bar ∈ part.val.bars) :
    keepsBar symbols timeframes bar = keepsPartition symbols timeframes part := by
  obtain ⟨hsymbol, htimeframe⟩ := part.sound.scope bar hbar
  unfold keepsBar keepsPartition
  rw [hsymbol, htimeframe]

theorem filter_bars (partitions : List (MarketDataPartition platform)) :
    (partitions.flatMap (·.val.bars)).filter (keepsBar symbols timeframes)
      = (partitions.filter (keepsPartition symbols timeframes)).flatMap
        (·.val.bars) := by
  induction partitions with
  | nil => rfl
  | cons part partitions ih =>
    rw [flatMap_cons, filter_append, ih]
    by_cases hkeeps : keepsPartition symbols timeframes part = true
    · have hall : part.val.bars.filter (keepsBar symbols timeframes) = part.val.bars := by
        apply filter_eq_self.mpr
        intro bar hbar
        rw [keepsBar_eq hbar, hkeeps]
      rw [filter_cons_of_pos hkeeps, flatMap_cons, hall]
    · have hnone : part.val.bars.filter (keepsBar symbols timeframes) = [] := by
        apply filter_eq_nil_iff.mpr
        intro bar hbar
        rw [keepsBar_eq hbar]
        exact hkeeps
      rw [filter_cons_of_neg hkeeps, hnone, nil_append]

namespace ColumnarV2

variable (part : MarketDataPartition platform)

theorem selectsSymbol_stored : selectsSymbol platform (storedEntry part) symbols
      = .ok (symbols.all (part.val.symbol ∈ ·)) := by
  cases symbols with
  | none => rfl
  | some symbols =>
    unfold selectsSymbol
    dsimp only
    rw [entry_symbol, ok_bind]
    rfl

theorem selectsTimeframe_stored : selectsTimeframe platform (storedEntry part) timeframes
      = .ok (timeframes.all (part.val.timeframe ∈ ·)) := by
  cases timeframes with
  | none => rfl
  | some timeframes =>
    unfold selectsTimeframe
    dsimp only
    rw [entry_timeframe, ok_bind, strOf_str, StrEnum.parse_text, ok_bind]
    rfl

/-- The entries of the partitions that are kept are selected. -/
theorem selectedEntries_stored (partitions : List (MarketDataPartition platform)) :
    selectedEntries platform symbols timeframes (partitions.map storedEntry)
      = .ok ((partitions.filter (keepsPartition symbols timeframes)).map storedEntry) := by
  induction partitions with
  | nil => rfl
  | cons part partitions ih =>
    rw [map_cons, selectedEntries, selectsSymbol_stored, ok_bind, selectsTimeframe_stored, ih]
    by_cases hsymbol : symbols.all (part.val.symbol ∈ ·) = true
    · rw [if_pos hsymbol, ok_bind]
      dsimp only
      rw [ok_bind]
      by_cases htimeframe : timeframes.all (part.val.timeframe ∈ ·) = true
      · have hkeeps : keepsPartition symbols timeframes part = true := by
          unfold keepsPartition
          rw [hsymbol, htimeframe]
          rfl
        rw [filter_cons_of_pos hkeeps, if_pos htimeframe]
        rfl
      · have hkeeps : ¬ keepsPartition symbols timeframes part = true := by
          unfold keepsPartition
          rw [Bool.and_eq_true]
          exact fun hboth => htimeframe hboth.2
        rw [filter_cons_of_neg hkeeps, if_neg htimeframe]
        rfl
    · have hkeeps : ¬ keepsPartition symbols timeframes part = true := by
        unfold keepsPartition
        rw [Bool.and_eq_true]
        exact fun hboth => hsymbol hboth.1
      rw [if_neg hsymbol, ok_bind]
      dsimp only
      rw [ok_bind, filter_cons_of_neg hkeeps]
      rfl

theorem verify_name {path : String} (hpath : path ∈ Lib.keys (body dataset)) : ∃ result, (do
      let expected ← orRaise ((checksums platform (body dataset)).lookup path)
        (.valueError ("Market Data Encoding V2 checksum mismatch: " ++ path))
      verifyChecksum platform (sealedFiles platform (body dataset))
        "Market Data Encoding V2" (path, expected)
      return (path, expected)) = Except.ok result := by
  have hverified := forM_ok.mp (@verify_sealed platform (body dataset)
    checksums_notMem "Market Data Encoding V2")
  have hkeys : path ∈ Lib.keys (checksums platform (body dataset)) := mem_checksums.mpr hpath
  obtain ⟨expected, hlookup⟩ := mem_keys.mp hkeys
  have hmem : (path, expected) ∈ checksums platform (body dataset) := by
    obtain ⟨before, after, heq, -⟩ := List.lookup_eq_some_iff.mp hlookup
    rw [heq]
    exact mem_append_right _ mem_cons_self
  refine ⟨(path, expected), ?_⟩
  rw [hlookup, orRaise_some, ok_bind, hverified _ hmem, ok_bind]
  rfl

/-- A selection has the bars that the filters keep. -/
theorem readSelection_sealed (hp : platform.Lossless) (h : dataset.Genuine)
    (name : String) (symbols : Option (List String))
    (timeframes : Option (List Timeframe)) :
    ∃ selection, readSelection platform name
        (sealedFiles platform (body dataset)) symbols timeframes = .ok selection
      ∧ selection.bars = dataset.iterBars.filter (keepsBar symbols timeframes) := by
  have hkept : ∀ part ∈ dataset.val.partitions.filter
      (keepsPartition symbols timeframes), part ∈ dataset.val.partitions :=
    fun part => mem_of_mem_filter
  have hpaths : ((dataset.val.partitions.filter
      (keepsPartition symbols timeframes)).map storedEntry).map
        (entryPath platform) = (dataset.val.partitions.filter
          (keepsPartition symbols timeframes)).map physicalPath := by
    rw [map_map]
    apply map_congr_left
    intro part _
    rw [Function.comp_apply, entryPath_stored]
  -- every verified name is that of a file of the body
  have hnames : ∀ path ∈ sortedDistinct (indexPaths ++ (dataset.val.partitions.filter
        (keepsPartition symbols timeframes)).map physicalPath),
      path ∈ Lib.keys (body dataset) := by
    intro path hpath
    rw [mem_sortedDistinct] at hpath
    rw [keys_body]
    rcases mem_append.mp hpath with hpath | hpath
    · have hindex : ∀ path ∈ indexPaths, path ∈ ["artifact.json", "adjustment-policy.json"]
            ∨ path ∈ ["encoding.json", "partition-index.json"] := by
        simp [indexPaths]
      rcases hindex path hpath with hfirst | hlast
      · exact mem_append_left _ (mem_append_left _ hfirst)
      · exact mem_append_right _ hlast
    · obtain ⟨part, hpart, rfl⟩ := mem_map.mp hpath
      exact mem_append_left _ (mem_append_right _
        (mem_map_of_mem (hkept part hpart)))
  obtain ⟨verified, hverified, -⟩ := mapM_ok_length fun path hpath =>
    verify_name (hnames path hpath)
  have hpartitions : ((dataset.val.partitions.filter
      (keepsPartition symbols timeframes)).map storedEntry).mapM
        (readPartition platform (sealedFiles platform (body dataset)))
        = .ok (dataset.val.partitions.filter (keepsPartition symbols timeframes)) :=
    mapM_written fun part hpart => readPartition_sealed hp h.verified (hkept part hpart)
  have hid : get (sortBy (·.1) (encodingFields dataset)) "logical_dataset_id"
      = get (sortBy (·.1) dataset.fields) "dataset_id" :=
    get_encoding_id.trans get_payload_id.symm
  have hhash : get (sortBy (·.1) (encodingFields dataset))
      "logical_dataset_hash" = get (sortBy (·.1) dataset.fields) "content_hash" :=
    get_encoding_hash.trans get_payload_hash.symm
  unfold readSelection
  rw [readPackageIndex_sealed hp, ok_bind]
  unfold storedIndex
  dsimp only
  rw [selectedEntries_stored, ok_bind, hpaths]
  refine ⟨
    { root := name
      datasetId := strOf platform (get (sortBy (·.1) dataset.fields) "dataset_id")
      datasetHash := strOf platform (get (sortBy (·.1) dataset.fields) "content_hash")
      bars := (dataset.val.partitions.filter
        (keepsPartition symbols timeframes)).flatMap (·.val.bars)
      selectedPartitionCount := ((dataset.val.partitions.filter
        (keepsPartition symbols timeframes)).map storedEntry).length
      physicalChecksumsHash := platform.canonicalHash (checksumsJson verified) }, ?_, ?_⟩
  · refine (congrArg (· >>= _) hverified).trans ?_
    rw [ok_bind, hpartitions, ok_bind, read_encoding hp, ok_bind,
      require_true ⟨hid, hhash⟩, ok_bind]
    rfl
  · exact (filter_bars dataset.val.partitions).symm

end ColumnarV2

end Selection

-- ==== publication

/-- The directory holds a package that is loaded as this artifact, with
its bars in its order. -/
def Loads (root : Root) (path : String) (artifact : MarketDataDatasetArtifact platform) : Prop :=
  ∃ verified, loadVerifiedMarketDataDataset platform root path none none = .ok verified
    ∧ verified.root = path
    ∧ verified.artifact = artifact
    ∧ verified.bars = artifact.iterBars

section Publication

variable {dataset : MarketDataDatasetArtifact platform} {root : Root}

theorem packageAt_installed {path notADirectory : String} {files : Package} :
    packageAt ((path, files) :: root) path notADirectory = .ok files := by
  unfold packageAt
  rw [lookup_cons_self]
  rfl

theorem lookup_encoding_json : (sealedFiles platform
    (JsonV1.body dataset)).lookup "encoding.json" = none := by
  rw [lookup_sealed (by simp)]
  exact lookup_eq_none.mpr (JsonV1.notMem_body (by simp) (by simp))

theorem lookup_encoding_columnar : ((sealedFiles platform
    (ColumnarV2.body dataset)).lookup "encoding.json").isSome = true := by
  have hfound : (sealedFiles platform (ColumnarV2.body dataset)).lookup
      "encoding.json" = some (jsonFile (dict (encodingFields dataset))) :=
    ColumnarV2.lookup_body (by simp) (mem_append_right _ mem_cons_self)
  rw [hfound]
  rfl

variable (hp : platform.Lossless)

include hp in
theorem load_json (h : dataset.Genuine)
    (symbols : Option (List String)) (timeframes : Option (List Timeframe)) :
    ∃ verified, loadVerifiedMarketDataDataset platform ((dataset.val.datasetId.val,
          sealedFiles platform (JsonV1.body dataset)) :: root)
        dataset.val.datasetId.val symbols timeframes = .ok verified
      ∧ verified.root = dataset.val.datasetId.val
      ∧ verified.artifact = dataset
      ∧ verified.bars = dataset.iterBars.filter (keepsBar symbols timeframes) := by
  unfold loadVerifiedMarketDataDataset
  rw [packageAt_installed, ok_bind, lookup_encoding_json, JsonV1.load_sealed hp h fun _ => rfl]
  exact ⟨_, rfl, rfl, rfl, rfl⟩

include hp in
theorem load_columnar (h : dataset.Genuine)
    (symbols : Option (List String)) (timeframes : Option (List Timeframe)) :
    ∃ verified, loadVerifiedMarketDataDataset platform ((dataset.val.datasetId.val,
          sealedFiles platform (ColumnarV2.body dataset)) :: root)
        dataset.val.datasetId.val symbols timeframes = .ok verified
      ∧ verified.root = dataset.val.datasetId.val
      ∧ verified.artifact = dataset
      ∧ verified.bars = dataset.iterBars.filter (keepsBar symbols timeframes) := by
  unfold loadVerifiedMarketDataDataset
  rw [packageAt_installed, ok_bind, lookup_encoding_columnar,
    ColumnarV2.load_sealed hp h fun _ => rfl]
  exact ⟨_, rfl, rfl, rfl, rfl⟩

include hp in
theorem publishJson_ok (h : dataset.Genuine)
    (hroot : root.lookup dataset.val.datasetId.val = none) :
    publishMarketDataDatasetJsonV1 root dataset = .ok ((dataset.val.datasetId.val,
        sealedFiles platform (JsonV1.body dataset)) :: root, dataset.val.datasetId.val) := by
  have hload := @JsonV1.load_sealed platform dataset
    dataset.val.datasetId.val hp h false (fun _ => rfl)
  unfold publishMarketDataDatasetJsonV1
  rw [h.verified, ok_bind]
  dsimp only
  rw [hroot]
  rw [JsonV1.stage_eq, ok_bind, hload, ok_bind]
  rfl

include hp in
theorem publishColumnar_ok (h : dataset.Genuine)
    (hroot : root.lookup dataset.val.datasetId.val = none) :
    publishMarketDataDatasetV2 root dataset = .ok ((dataset.val.datasetId.val,
        sealedFiles platform (ColumnarV2.body dataset)) :: root, dataset.val.datasetId.val) := by
  have hload := @ColumnarV2.load_sealed platform dataset hp h
    dataset.val.datasetId.val false (fun _ => rfl)
  unfold publishMarketDataDatasetV2
  rw [h.verified, ok_bind]
  dsimp only
  rw [hroot]
  rw [ColumnarV2.stage_eq, ok_bind, hload, ok_bind]
  rfl

include hp in
theorem publishJson_again (h : dataset.Genuine) :
    publishMarketDataDatasetJsonV1 ((dataset.val.datasetId.val,
        sealedFiles platform (JsonV1.body dataset)) :: root) dataset
      = .ok ((dataset.val.datasetId.val, sealedFiles platform (JsonV1.body dataset)) :: root,
          dataset.val.datasetId.val) := by
  obtain ⟨existing, hload, -, hartifact, -⟩ := @load_json platform dataset root hp h none none
  unfold publishMarketDataDatasetJsonV1 requireExisting
  rw [h.verified, ok_bind]
  dsimp only
  rw [lookup_cons_self]
  rw [hload, ok_bind, require_true (by rw [hartifact]), ok_bind]
  rfl

include hp in
theorem publishColumnar_again (h : dataset.Genuine) :
    publishMarketDataDatasetV2 ((dataset.val.datasetId.val,
        sealedFiles platform (ColumnarV2.body dataset)) :: root) dataset
      = .ok ((dataset.val.datasetId.val, sealedFiles platform (ColumnarV2.body dataset)) :: root,
          dataset.val.datasetId.val) := by
  have hload := @ColumnarV2.load_sealed platform dataset hp h
    dataset.val.datasetId.val true (fun _ => rfl)
  unfold publishMarketDataDatasetV2 requireExisting loadVerifiedMarketDataDatasetV2
  rw [h.verified, ok_bind]
  dsimp only
  rw [lookup_cons_self]
  rw [packageAt_installed, ok_bind, hload, ok_bind, require_true rfl, ok_bind]
  rfl

include hp in
/-- A package of encoding V1 is migrated into a root without the
dataset. -/
theorem migrate_ok (h : dataset.Genuine)
    {target : Root} (htarget : target.lookup dataset.val.datasetId.val = none) :
    migrateMarketDataPackageV1ToV2 platform ((dataset.val.datasetId.val,
        sealedFiles platform (JsonV1.body dataset)) :: root)
        dataset.val.datasetId.val target
      = .ok ((dataset.val.datasetId.val, sealedFiles platform (ColumnarV2.body dataset)) :: target,
          dataset.val.datasetId.val) := by
  have hsource := @JsonV1.load_sealed platform dataset
    dataset.val.datasetId.val hp h true (fun _ => rfl)
  obtain ⟨reloaded, hload, -, hartifact, -⟩ := @load_columnar platform dataset target hp h none none
  unfold migrateMarketDataPackageV1ToV2
  rw [packageAt_installed, ok_bind, require_true lookup_encoding_json, ok_bind, hsource, ok_bind]
  rw [publishColumnar_ok hp h htarget, ok_bind]
  dsimp only
  rw [hload, ok_bind, require_true (by rw [hartifact]), ok_bind]
  rfl

end Publication

/-- Encoding V1: what is published is loaded as the same artifact with the
same bars, publishing it again returns the same path and changes nothing,
and the package is migrated into any root without the dataset and loaded
from there as the same artifact. -/
def JsonRoundTrip (root : Root) (artifact : MarketDataDatasetArtifact platform) : Prop :=
  ∃ root', publishMarketDataDataset root artifact "market-data-package-json-v1"
      = .ok (root', artifact.val.datasetId.val)
    ∧ Loads root' artifact.val.datasetId.val artifact
    ∧ publishMarketDataDataset root' artifact "market-data-package-json-v1"
      = .ok (root', artifact.val.datasetId.val)
    ∧ ∀ target : Root, target.lookup artifact.val.datasetId.val = none →
      ∃ target', migrateMarketDataPackageV1ToV2 platform root'
          artifact.val.datasetId.val target = .ok (target', artifact.val.datasetId.val)
        ∧ Loads target' artifact.val.datasetId.val artifact

/-- Encoding V2: what is published is loaded as the same artifact with the
same bars, publishing it again returns the same path and changes nothing,
and a selection has the bars that the full load has under the same
filters. -/
def ColumnarRoundTrip (root : Root) (artifact : MarketDataDatasetArtifact platform) : Prop :=
  ∃ root', publishMarketDataDataset root artifact "market-data-package-encoding-v2"
      = .ok (root', artifact.val.datasetId.val)
    ∧ Loads root' artifact.val.datasetId.val artifact
    ∧ publishMarketDataDataset root' artifact "market-data-package-encoding-v2"
      = .ok (root', artifact.val.datasetId.val)
    ∧ ∀ symbols timeframes, ∃ selection verified,
      readMarketDataSelectionV2 platform root' artifact.val.datasetId.val
          symbols timeframes = .ok selection
        ∧ loadVerifiedMarketDataDataset platform root'
          artifact.val.datasetId.val symbols timeframes = .ok verified
        ∧ selection.bars = verified.bars
        ∧ selection.bars = artifact.iterBars.filter fun bar =>
          symbols.all (bar.val.symbol ∈ ·) && timeframes.all (bar.val.timeframe ∈ ·)

/-- What is created makes the round trip in both encodings, whatever it was
created from. -/
theorem package_codec (hp : platform.Lossless) {decisionTime createdAt : UtcSecond}
    {bars : List (CanonicalMarketBar platform)}
    {expectedSymbols : List String} {expectedTimeframes : List Timeframe}
    {adjustmentPolicy : PriceAdjustmentPolicy platform}
    {sourceManifestReferences : List (ArtifactId platform × String)}
    {dataEligibility : DataEligibility} {formalPitStatus : FormalPitStatus}
    {limitations : List String} {artifact : MarketDataDatasetArtifact platform}
    (hcreated : MarketDataDatasetArtifact.create decisionTime createdAt bars
      expectedSymbols expectedTimeframes adjustmentPolicy
      sourceManifestReferences dataEligibility formalPitStatus limitations = .ok artifact)
    {root : Root} (hroot : root.lookup artifact.val.datasetId.val = none) :
    JsonRoundTrip root artifact ∧ ColumnarRoundTrip root artifact := by
  have h := MarketDataDatasetArtifact.genuine_of_create hcreated
  have hencoding : "market-data-package-json-v1" ≠ marketDataPackageEncodingV2 := by
    simp [marketDataPackageEncodingV2]
  have hcolumnar : "market-data-package-encoding-v2" = marketDataPackageEncodingV2 := rfl
  have hall : ∀ l : List (CanonicalMarketBar platform), l.filter (keepsBar none none) = l :=
    fun l => filter_eq_self.mpr fun _ _ => rfl
  constructor
  · refine ⟨(artifact.val.datasetId.val,
      sealedFiles platform (JsonV1.body artifact)) :: root, ?_, ?_, ?_, ?_⟩
    · unfold publishMarketDataDataset
      exact publishJson_ok hp h hroot
    · obtain ⟨verified, hload, hpath, hartifact, hbars⟩ :=
        @load_json platform artifact root hp h none none
      exact ⟨verified, hload, hpath, hartifact, hbars.trans (hall _)⟩
    · unfold publishMarketDataDataset
      exact publishJson_again hp h
    · intro target htarget
      obtain ⟨verified, hload, hpath, hartifact, hbars⟩ :=
        @load_columnar platform artifact target hp h none none
      exact ⟨_, migrate_ok hp h htarget, verified, hload, hpath, hartifact, hbars.trans (hall _)⟩
  · refine ⟨(artifact.val.datasetId.val,
      sealedFiles platform (ColumnarV2.body artifact)) :: root, ?_, ?_, ?_, ?_⟩
    · unfold publishMarketDataDataset
      exact publishColumnar_ok hp h hroot
    · obtain ⟨verified, hload, hpath, hartifact, hbars⟩ :=
        @load_columnar platform artifact root hp h none none
      exact ⟨verified, hload, hpath, hartifact, hbars.trans (hall _)⟩
    · unfold publishMarketDataDataset
      exact publishColumnar_again hp h
    · intro symbols timeframes
      obtain ⟨verified, hload, -, -, hbars⟩ :=
        @load_columnar platform artifact root hp h symbols timeframes
      obtain ⟨selection, hselection, hselected⟩ :=
        ColumnarV2.readSelection_sealed hp h artifact.val.datasetId.val symbols timeframes
      refine ⟨selection, verified, ?_, hload, hselected.trans hbars.symm, hselected⟩
      unfold readMarketDataSelectionV2
      rw [packageAt_installed, ok_bind]
      exact hselection

-- ==== reading by text

theorem getLast?_strBody (ascii : Bool) (text : List Char) :
    (Json.strBody ascii text).getLast? = some '"' := by
  induction text with
  | nil => rfl
  | cons c text ih =>
    have hne : Json.strBody ascii text ≠ [] := by
      intro hnil
      rw [hnil] at ih
      cases ih
    rw [Json.strBody, getLast?_append_of_ne_nil _ hne, ih]

variable (style : JsonStyle)

theorem getLast?_renderItems (items : List Json) :
    (Json.renderItems style items).getLast? = some ']' := by
  induction items with
  | nil => rfl
  | cons item items ih =>
    have hne : Json.renderItems style items ≠ [] := by
      intro hnil
      rw [hnil] at ih
      cases ih
    rw [Json.renderItems, ← append_assoc, getLast?_append_of_ne_nil _ hne, ih]

theorem getLast?_renderFields (fields : List (String × Json)) :
    (Json.renderFields style fields).getLast? = some '}' := by
  induction fields with
  | nil => rfl
  | cons field fields ih =>
    have hne : Json.renderFields style fields ≠ [] := by
      intro hnil
      rw [hnil] at ih
      cases ih
    rw [Json.renderFields, ← append_assoc, getLast?_append_of_ne_nil _ hne, ih]

/-- No value ends in a line break. -/
theorem getLast?_render (value : Json) : (Json.render style value).getLast? ≠ some '\n' := by
  have hdigits : ∀ n, (digits n).getLast? ≠ some '\n' := by
    intro n
    have hall : ∀ n < 10, Nat.digitChar n ≠ '\n' := by decide
    rw [getLast?_digits]
    exact fun h => hall _ (Nat.mod_lt _ (by decide)) (Option.some.inj h)
  cases value with
  | null => simp [Json.render]
  | bool b =>
    cases b with
    | false => simp [Json.render]
    | true => simp [Json.render]
  | int n =>
    rw [Json.render]
    split
    · rw [getLast?_cons_of_ne_nil (digits_ne_nil _)]
      exact hdigits _
    · exact hdigits _
  | str s =>
    have hlast := getLast?_strBody style.ascii s.toList
    have hne : Json.strBody style.ascii s.toList ≠ [] := by
      intro hnil
      rw [hnil] at hlast
      cases hlast
    rw [Json.render, getLast?_cons_of_ne_nil hne, hlast]
    decide
  | arr items =>
    cases items with
    | nil => simp [Json.render]
    | cons item items =>
      have hlast := getLast?_renderItems style items
      have hne : Json.renderItems style items ≠ [] := by
        intro hnil
        rw [hnil] at hlast
        cases hlast
      rw [Json.render, ← cons_append, getLast?_append_of_ne_nil _ hne, hlast]
      decide
  | obj fields =>
    cases fields with
    | nil => simp [Json.render]
    | cons field fields =>
      have hlast := getLast?_renderFields style fields
      have hne : Json.renderFields style fields ≠ [] := by
        intro hnil
        rw [hnil] at hlast
        cases hlast
      rw [Json.render, ← cons_append, getLast?_append_of_ne_nil _ hne, hlast]
      decide
theorem canonical_sortKeys {value : Json} (h : value.Canonical) : value.sortKeys = value := by
  induction h with
  | null => rfl
  | bool b => rfl
  | int n => rfl
  | str s => rfl
  | arr h ih => rw [Json.sortKeys, Json.sortKeysItems_eq, map_congr_left ih, map_id']
  | @obj fields hkeys h ih =>
    have hfields : fields.map (fun field => (field.1, field.2.sortKeys)) = fields := by
      have hall : ∀ field ∈ fields, (field.1, field.2.sortKeys) = field := fun field hfield => by
        rw [ih field hfield]
      rw [map_congr_left hall, map_id']
    have hsorted : sortBy (·.1) fields = fields :=
      ((pairwise_map.mp hkeys).imp le_of_lt).insertionSort_eq
    rw [Json.sortKeys, Json.sortKeysFields_eq, hfields, hsorted]

theorem canonicalJson_inj {value value' : Json} (h : value.Canonical)
    (h' : value'.Canonical) (htext : canonicalJson value = canonicalJson value') :
    value = value' := by
  have hsorted := Json.dumps_inj.mp htext
  rwa [canonical_sortKeys h, canonical_sortKeys h'] at hsorted

theorem canonicalJson_ne_line (value : Json) (text : String) :
    canonicalJson value ≠ text ++ "\n" := by
  intro h
  have hchars := congrArg String.toList h
  unfold canonicalJson Json.dumps at hchars
  rw [String.toList_ofList, String.toList_append] at hchars
  apply getLast?_render ⟨false, true⟩ value.sortKeys
  rw [hchars]
  exact getLast?_append_of_ne_nil _ (cons_ne_nil _ _)

/-- The value whose text this is, with a line break after it or not. -/
noncomputable def valueOf (text : String) : Option Json :=
  open Classical in
  if h : ∃ value : Json, value.Canonical
      ∧ (text = canonicalJson value ∨ text = canonicalJson value ++ "\n") then
    some h.choose
  else none

theorem valueOf_eq {text : String} {value : Json} (h : value.Canonical)
    (htext : text = canonicalJson value ∨ text = canonicalJson value ++ "\n") :
    valueOf text = some value := by
  have hexists : ∃ value : Json, value.Canonical
      ∧ (text = canonicalJson value ∨ text = canonicalJson value ++ "\n") :=
    ⟨value, h, htext⟩
  obtain ⟨hcanonical, hchosen⟩ := hexists.choose_spec
  unfold valueOf
  rw [dif_pos hexists]
  congr 1
  apply canonicalJson_inj hcanonical h
  rcases htext with htext | htext
  · rcases hchosen with hchosen | hchosen
    · rw [← hchosen, htext]
    · exact absurd (htext.symm.trans hchosen) (canonicalJson_ne_line _ _)
  · rcases hchosen with hchosen | hchosen
    · exact absurd (hchosen.symm.trans htext) (canonicalJson_ne_line _ _)
    · have hchars := congrArg String.toList (hchosen.symm.trans htext)
      rw [String.toList_append, String.toList_append] at hchars
      exact String.toList_inj.mp (append_cancel_right hchars)

-- ==== a sample

def sampleDigest (_content : ByteArray) : String :=
  "e3b0c44298fc1c149afbf4c8996fb92427ae41e4649b934ca495991b7852b855"

def sampleTable (rows : List ParquetRow) : ByteArray :=
  (canonicalJson (.arr (rows.map fun row => .str row.barJson))).toUTF8

noncomputable def samplePlatform : Platform where
  isDigit := Char.isDigit
  isStripped value := ¬ (value.toList.head? = some ' ' ∨ value.toList.getLast? = some ' ')
  containerText value := String.ofList (value.render ⟨true, false⟩)
  -- before 16:00 UTC it is the same day in Shanghai
  shanghaiDate t := t.date
  sha256 := sampleDigest
  loads := valueOf
  writeTable := sampleTable
  readBarJson content := do
    let text ← String.fromUTF8? content
    let items ← (← valueOf text).items?
    items.mapM Json.text?

theorem sample_lossless : samplePlatform.Lossless where
  loads_canonicalJson payload h := valueOf_eq h (.inl rfl)
  loads_line payload h := valueOf_eq h (.inr rfl)
  readBarJson_writeTable rows := by
    have hcanonical : (Json.arr (rows.map fun row =>
        .str row.barJson)).Canonical := canonical_map fun _ _ => .str _
    have htext : ∀ l : List ParquetRow, (l.map fun row =>
        Json.str row.barJson).mapM Json.text? = some (l.map (·.barJson)) := by
      intro l
      induction l with
      | nil => rfl
      | cons row l ih =>
        rw [map_cons, mapM_cons, ih]
        rfl
    show (String.fromUTF8? (sampleTable rows) >>= fun text =>
      valueOf text >>= fun value => value.items? >>= fun items => items.mapM Json.text?) = _
    unfold sampleTable
    rw [fromUTF8?_toUTF8]
    show (valueOf _ >>= fun value => value.items? >>= fun items => items.mapM Json.text?) = _
    rw [valueOf_eq hcanonical (.inl rfl)]
    exact htext rows

def sampleDate : Shared.Date := .sample

def sampleSecond (hour minute : Nat) (hhour : hour < 24) (hminute : minute < 60) : UtcSecond :=
  ⟨sampleDate, ⟨hour, minute, 0, 0, hhour, hminute, Shared.Time.zero_minute,
    Shared.Time.zero_microsecond⟩, rfl⟩

def sampleHash : String := "sha256:" ++ sampleDigest ByteArray.empty

/-- The values of one daily bar. -/
noncomputable def sampleBar (source : ArtifactId samplePlatform) :
    BarValues samplePlatform :=
  { symbol := "600000.SH"
    exchange := .sh
    assetType := .aShare
    timeframe := .daily
    marketDate := sampleDate
    eventStart := sampleSecond 1 30 (by decide) (by decide)
    eventEnd := sampleSecond 7 0 (by decide) Shared.Time.zero_minute
    availableAt := sampleSecond 8 0 (by decide) Shared.Time.zero_minute
    openPrice := Decimal.plain ⟨false, 105, -1⟩
    high := Decimal.plain ⟨false, 11, 0⟩
    low := Decimal.plain ⟨false, 10, 0⟩
    close := Decimal.plain ⟨false, 1075, -2⟩
    previousClose := none
    volume := Decimal.plain ⟨false, 100, 0⟩
    volumeUnit := .shares
    amount := none
    turnoverRate := none
    adjustmentMode := .raw
    adjustmentFactor := PlainDecimal.one
    adjustmentFactorId := none
    adjustmentFactorHash := none
    tradingStatus := .trading
    priceLimitState := .normal
    sourceArtifactId := source
    sourceContentHash := sampleHash }

/-- The dataset of one daily bar. -/
noncomputable def sampleDataset : Except Raised (MarketDataDatasetArtifact samplePlatform) := do
  let source ← artifactId samplePlatform (.str "source-1")
  let bar ← CanonicalMarketBar.create (sampleBar source)
  let policy ← PriceAdjustmentPolicy.create "policy-v1" .raw [] []
  MarketDataDatasetArtifact.create (sampleSecond 9 0 (by decide) Shared.Time.zero_minute)
    (sampleSecond 9 0 (by decide) Shared.Time.zero_minute) [bar] ["600000.SH"] [.daily]
    policy [(source, sampleHash)] .unqualified .formalPitNotEstablished []

theorem package_codec_sample : ∃ artifact, sampleDataset = .ok artifact
    ∧ JsonRoundTrip [] artifact ∧ ColumnarRoundTrip [] artifact := by
  obtain ⟨artifact, hartifact⟩ := exists_of_isOk (show sampleDataset.isOk by decide +kernel)
  refine ⟨artifact, hartifact, ?_⟩
  unfold sampleDataset at hartifact
  obtain ⟨source, -, hartifact⟩ := bind_ok.mp hartifact
  obtain ⟨bar, -, hartifact⟩ := bind_ok.mp hartifact
  obtain ⟨policy, -, hcreated⟩ := bind_ok.mp hartifact
  exact package_codec sample_lossless hcreated rfl

end MarketRegimeAlpha.MarketData
