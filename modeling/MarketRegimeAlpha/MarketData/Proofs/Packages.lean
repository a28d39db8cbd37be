/-
Packages that were staged are loaded as the dataset they were staged
from, in both encodings.

# The paths

Two partitions of a dataset differ in their symbol or their timeframe.
A symbol has nine characters, and what follows the timeframe in a path
has the same length in every path, so the paths differ as well
(`partitionPath_inj`, `physicalPath_inj`). All of them lie in one
directory, where no other file is (`InPartitions`).
-/
import MarketRegimeAlpha.MarketData.Proofs.Creation
import MarketRegimeAlpha.MarketData.Proofs.Files

namespace MarketRegimeAlpha.MarketData

open Lib List
open Shared (Date isoDate)

variable {platform : Platform}

-- ==== the paths

def InPartitions (path : String) : Prop := path.toList.take 11 = "partitions/".toList

theorem CanonicalMarketBar.symbol_length (bar : CanonicalMarketBar platform) :
    bar.val.symbol.toList.length = 9 := by
  have h := bar.property
  obtain ⟨_, -, h⟩ := bind_ok.mp h
  obtain ⟨_, -, h⟩ := bind_ok.mp h
  obtain ⟨_, hsymbol, -⟩ := bind_ok.mp h
  obtain ⟨_, hform, -⟩ := bind_ok.mp hsymbol
  exact (require_ok.mp hform).1

theorem MarketDataPartition.symbol_length (part : MarketDataPartition platform) :
    part.val.symbol.toList.length = 9 := by
  obtain ⟨bar, hbar, -⟩ := Option.map_eq_some_iff.mp part.sound.first
  have hmem : bar ∈ part.val.bars := mem_of_mem_head? hbar
  rw [← (part.sound.scope bar hmem).1]
  exact bar.symbol_length

theorem dateText_length (date : Date) : (dateText date).toList.length = 10 := by
  unfold dateText
  rw [String.toList_ofList]
  exact length_isoDate date

theorem partitionPath_inj {symbol symbol' : String} {timeframe timeframe' : Timeframe}
    (hlength : symbol.toList.length = symbol'.toList.length)
    (h : partitionPath symbol timeframe = partitionPath symbol' timeframe') :
    symbol = symbol' ∧ timeframe = timeframe' := by
  have hchars := congrArg String.toList h
  unfold partitionPath at hchars
  simp only [String.toList_append, append_assoc] at hchars
  obtain ⟨-, hchars⟩ := append_inj hchars rfl
  obtain ⟨hsymbol, hchars⟩ := append_inj hchars hlength
  obtain ⟨-, hchars⟩ := append_inj hchars rfl
  obtain ⟨htimeframe, -⟩ := append_inj' hchars rfl
  exact ⟨String.toList_inj.mp hsymbol, StrEnum.text_inj (String.toList_inj.mp htimeframe)⟩

theorem physicalPath_inj {part part' : MarketDataPartition platform}
    (h : physicalPath part = physicalPath part') :
    part.val.symbol = part'.val.symbol ∧ part.val.timeframe = part'.val.timeframe := by
  have hlength : part.val.symbol.toList.length = part'.val.symbol.toList.length := by
    rw [part.symbol_length, part'.symbol_length]
  have hchars := congrArg String.toList h
  unfold physicalPath at hchars
  simp only [String.toList_append, append_assoc] at hchars
  obtain ⟨-, hchars⟩ := append_inj hchars rfl
  obtain ⟨hsymbol, hchars⟩ := append_inj hchars hlength
  obtain ⟨-, hchars⟩ := append_inj hchars rfl
  have htail : ∀ part : MarketDataPartition platform, ("/".toList
      ++ ((dateText part.val.firstMarketDate).toList ++ ("_".toList
        ++ ((dateText part.val.lastMarketDate).toList ++ ".parquet".toList)))).length = 30 := by
    intro part
    simp only [length_append, dateText_length]
    rfl
  obtain ⟨htimeframe, -⟩ := append_inj' hchars ((htail part).trans (htail part').symm)
  exact ⟨String.toList_inj.mp hsymbol, StrEnum.text_inj (String.toList_inj.mp htimeframe)⟩

theorem inPartitions_append {path tail : String}
    (h : path = "partitions/" ++ tail) : InPartitions path := by
  unfold InPartitions
  rw [h, String.toList_append]
  exact take_left' rfl

theorem inPartitions_partitionPath (symbol : String) (timeframe : Timeframe) :
    InPartitions (partitionPath symbol timeframe) := by
  apply inPartitions_append
  unfold partitionPath
  rw [String.append_assoc, String.append_assoc, String.append_assoc]

theorem inPartitions_physicalPath (part : MarketDataPartition platform) :
    InPartitions (physicalPath part) := by
  apply inPartitions_append
  unfold physicalPath
  simp only [String.append_assoc]
  rfl

-- ==== the bodies

namespace MarketDataDatasetArtifact

/-- The scopes of the partitions of a dataset are sorted, and each is
there once. -/
theorem scopes_sorted (dataset : MarketDataDatasetArtifact platform) :
    isSortedSet id (dataset.val.partitions.map fun part =>
      (toLex (part.val.symbol, StrEnum.text part.val.timeframe) : String ×ₗ String)) = true := by
  have h := dataset.property
  iterate 3 obtain ⟨_, -, h⟩ := bind_ok.mp h
  obtain ⟨_, hsorted, -⟩ := bind_ok.mp h
  exact require_ok.mp hsorted

theorem paths_nodup (dataset : MarketDataDatasetArtifact platform)
    {path : MarketDataPartition platform → String}
    (hinj : ∀ part part', path part = path part' → part.val.symbol = part'.val.symbol
        ∧ part.val.timeframe = part'.val.timeframe) :
    (dataset.val.partitions.map path).Nodup := by
  have hsorted : dataset.val.partitions.map (fun part =>
      (toLex (part.val.symbol, StrEnum.text part.val.timeframe)
        : String ×ₗ String)) = sortBy id _ :=
    of_decide_eq_true dataset.scopes_sorted
  have hscopes : (dataset.val.partitions.map fun part =>
      (toLex (part.val.symbol, StrEnum.text part.val.timeframe) : String ×ₗ String)).Nodup := by
    rw [hsorted]
    exact (sortBy_perm _ _).nodup_iff.mpr (nodup_dedup _)
  rw [List.Nodup, pairwise_map] at hscopes ⊢
  apply hscopes.imp
  intro part part' hscope hpath
  obtain ⟨hsymbol, htimeframe⟩ := hinj part part' hpath
  apply hscope
  rw [hsymbol, htimeframe]

end MarketDataDatasetArtifact

/-- A name that is not in the directory of the partitions is none of
theirs. -/
theorem notMem_paths {paths : List String} (hpaths : ∀ path ∈ paths, InPartitions path)
    {name : String} (hname : name.toList.take 11 ≠ "partitions/".toList) : name ∉ paths :=
  fun hmem => hname (hpaths name hmem)

namespace JsonV1

def body (dataset : MarketDataDatasetArtifact platform) : Package :=
  [("artifact.json", jsonFile dataset.toCanonicalDict), ("adjustment-policy.json",
      jsonFile dataset.val.adjustmentPolicy.toCanonicalDict)]
    ++ dataset.val.partitions.map fun part => (part.val.relativePath, jsonFile part.toCanonicalDict)

variable {dataset : MarketDataDatasetArtifact platform} {name : String}

theorem keys_body : Lib.keys (body dataset) = jsonPaths dataset := by
  unfold body jsonPaths Lib.keys
  rw [map_append, map_map]
  rfl

theorem paths_inPartitions : ∀ path ∈ dataset.val.partitions.map
    (·.val.relativePath), InPartitions path := by
  intro path hpath
  obtain ⟨part, -, rfl⟩ := mem_map.mp hpath
  rw [part.sound.path]
  exact inPartitions_partitionPath _ _

theorem keys_nodup : (Lib.keys (body dataset)).Nodup := by
  rw [keys_body]
  apply Nodup.append
  · simp
  · apply dataset.paths_nodup
    intro part part' hpath
    rw [part.sound.path, part'.sound.path] at hpath
    exact partitionPath_inj (part.symbol_length.trans part'.symbol_length.symm) hpath
  · intro name hname hpath
    have hall : ∀ name ∈ ["artifact.json", "adjustment-policy.json"],
        name.toList.take 11 ≠ "partitions/".toList := by simp
    exact notMem_paths paths_inPartitions (hall name hname) hpath

theorem notMem_body (hfixed : name ∉ ["artifact.json", "adjustment-policy.json"])
    (hname : name.toList.take 11 ≠ "partitions/".toList) :
    name ∉ Lib.keys (body dataset) := by
  rw [keys_body]
  exact not_mem_append hfixed (notMem_paths paths_inPartitions hname)

theorem stage_eq : stage dataset = .ok (sealedFiles platform (body dataset)) := by
  have hnodup := @keys_nodup platform dataset
  have hartifact := createFile_ok (jsonFile dataset.toCanonicalDict)
    (show "artifact.json" ∉ Lib.keys [] from not_mem_nil)
  have hpolicy := createFile_ok (jsonFile dataset.val.adjustmentPolicy.toCanonicalDict)
    (show "adjustment-policy.json" ∉ Lib.keys ([] ++ [("artifact.json",
      jsonFile dataset.toCanonicalDict)]) by
        show "adjustment-policy.json" ∉ ["artifact.json"]
        simp)
  have hpartitions : dataset.val.partitions.foldlM (fun files part =>
      writeJson files part.val.relativePath part.toCanonicalDict)
      [("artifact.json", jsonFile dataset.toCanonicalDict), ("adjustment-policy.json",
          jsonFile dataset.val.adjustmentPolicy.toCanonicalDict)]
      = .ok (body dataset) := by
    have hfold := foldlM_createFile hnodup
    rw [foldlM_map] at hfold
    exact hfold
  have hsums := createFile_ok (jsonFile (checksumsJson (checksums platform (body dataset))))
    (@notMem_body platform dataset "SHA256SUMS.json" (by simp) (by simp))
  unfold stage writeJson
  rw [hartifact, ok_bind, hpolicy, ok_bind]
  refine (congrArg (· >>= _) hpartitions).trans ?_
  rw [ok_bind, checksumsOf_ok fun name => by rw [keys_body], ok_bind]
  exact hsums

theorem lookup_body {path : String} {content : ByteArray} (hpath : path ≠ "SHA256SUMS.json")
    (h : (path, content) ∈ body dataset) :
    (sealedFiles platform (body dataset)).lookup path = some content := by
  rw [lookup_sealed hpath]
  exact (lookup_eq_some_iff keys_nodup).mpr h

theorem referencedPath_ok (part : MarketDataPartition platform) (e : Raised) :
    referencedPath (sortBy (·.1) part.reference) e = .ok part.val.relativePath := by
  have hitem : item (sortBy (·.1) part.reference) "relative_path"
      = .ok (.str part.val.relativePath) := by
    rw [item_sorted part.reference_nodup]
    simp only [MarketDataPartition.reference, item_cons, String.reduceEq, if_true, if_false]
  unfold referencedPath
  rw [lookup_of_item hitem]
  rfl

theorem read_partition (hp : platform.Lossless) (hverified : dataset.verifyIdentity = .ok ())
    {part : MarketDataPartition platform} (hpart : part ∈ dataset.val.partitions) :
    (do MarketDataPartition.fromCanonicalDict (← readObject platform
      (sealedFiles platform (body dataset)) part.val.relativePath))
      = .ok part := by
  have hmem : (part.val.relativePath, jsonFile part.toCanonicalDict) ∈ body dataset :=
    mem_append_right _ (mem_map.mpr ⟨part, hpart, rfl⟩)
  have hne : part.val.relativePath ≠ "SHA256SUMS.json" := by
    intro heq
    have hin := inPartitions_partitionPath part.val.symbol part.val.timeframe
    rw [← part.sound.path, heq] at hin
    revert hin
    unfold InPartitions
    simp
  have hread : readObject platform (sealedFiles platform (body dataset))
      part.val.relativePath = .ok (sortBy (·.1) part.fields) :=
    readObjectFile_json hp part.canonical (lookup_body hne hmem)
  rw [hread, ok_bind]
  exact MarketDataPartition.from_fields
    (MarketDataDatasetArtifact.partitions_verified hverified part hpart)

/-- What was staged is loaded as the dataset it was staged from. -/
theorem load_sealed (hp : platform.Lossless) (h : dataset.Genuine) {enforce : Bool}
    (hname : enforce = true → name = dataset.val.datasetId.val) :
    load platform name (sealedFiles platform (body dataset)) enforce = .ok
        { root := name
          artifact := dataset
          bars := dataset.iterBars
          checksumsHash := platform.canonicalHash
            (checksumsJson (checksums platform (body dataset))) } := by
  have hbody : "SHA256SUMS.json" ∉ Lib.keys (body dataset) := notMem_body (by simp) (by simp)
  have hthere : "SHA256SUMS.json" ∈ (sealedFiles platform (body dataset)).map (·.1) := by
    unfold sealedFiles
    rw [map_append]
    exact mem_append_right _ mem_cons_self
  have hsums : readObject platform (sealedFiles platform (body dataset))
      "SHA256SUMS.json" = .ok ((checksums platform (body dataset)).map
        fun entry => (entry.1, .str entry.2)) := by
    rw [← sortBy_checksums]
    exact readObjectFile_json hp checksumsJson_canonical (lookup_checksums hbody)
  have hpolicy : readObject platform (sealedFiles platform (body dataset))
      "adjustment-policy.json" = .ok (sortBy (·.1) dataset.val.adjustmentPolicy.fields) :=
    readObjectFile_json hp dataset.val.adjustmentPolicy.canonical (lookup_body (by simp)
        (mem_append_left _ (mem_cons_of_mem _ mem_cons_self)))
  have hartifact : readObject platform (sealedFiles platform (body dataset))
      "artifact.json" = .ok (sortBy (·.1) dataset.fields) :=
    readObjectFile_json hp dataset.canonical (lookup_body (by simp)
        (mem_append_left _ mem_cons_self))
  have hrefs : (sortBy (·.1) dataset.fields).lookup "partitions"
      = some (.arr (dataset.val.partitions.map (·.referenceDict))) := by
    apply lookup_of_item
    rw [item_sorted dataset.keys_nodup]
    simp only [MarketDataDatasetArtifact.fields, DatasetValues.payload,
      item_cons, String.reduceEq, if_true, if_false]
  have hreferences : ∀ e, dictItems (.arr (dataset.val.partitions.map (·.referenceDict))) e
        = .ok (dataset.val.partitions.map fun part =>
          sortBy (·.1) part.reference) :=
    dictItems_map MarketDataPartition.reference dataset.val.partitions
  have hpaths : ∀ e, (dataset.val.partitions.map fun part =>
      sortBy (·.1) part.reference).mapM (referencedPath · e)
        = .ok (dataset.val.partitions.map (·.val.relativePath)) :=
    fun e => mapM_map_ok fun part _ => referencedPath_ok part e
  have hpartitions : (dataset.val.partitions.map
      (·.val.relativePath)).mapM (fun path => do
        MarketDataPartition.fromCanonicalDict (← readObject platform
          (sealedFiles platform (body dataset)) path))
        = .ok dataset.val.partitions :=
    mapM_written fun part hpart => read_partition hp h.verified hpart
  have hindex : sameNames ((checksums platform (body dataset)).map (·.1))
      (jsonPaths dataset) = true := by
    apply sameNames_ok
    intro path
    rw [mem_checksums, keys_body]
  unfold load
  dsimp only
  rw [require_true hthere, ok_bind, hsums, ok_bind, readChecksums_ok, ok_bind,
    require_true sameNames_sealed, ok_bind, verify_sealed hbody, ok_bind,
    hpolicy, ok_bind,
    PriceAdjustmentPolicy.from_fields dataset.policy_verified, ok_bind,
    hartifact, ok_bind, hrefs, Option.getD_some, hreferences, ok_bind, hpaths,
    ok_bind, hpartitions, ok_bind, MarketDataDatasetArtifact.from_fields h,
    ok_bind, require_true hindex, ok_bind, require_true hname, ok_bind]
  rfl

end JsonV1

namespace ColumnarV2

-- ==== the body, encoding V2

def indexFields (dataset : MarketDataDatasetArtifact platform) : List (String × Json) :=
  [("partitions", .arr (dataset.val.partitions.map fun part => dict (indexEntry part)))]

def body (dataset : MarketDataDatasetArtifact platform) : Package :=
  [("artifact.json", jsonFile dataset.toCanonicalDict), ("adjustment-policy.json",
      jsonFile dataset.val.adjustmentPolicy.toCanonicalDict)]
    ++ dataset.val.partitions.map (fun part => (physicalPath part, partitionTable part))
    ++ [("encoding.json", jsonFile (dict (encodingFields dataset))),
      ("partition-index.json", jsonFile (dict (indexFields dataset)))]

variable {dataset : MarketDataDatasetArtifact platform}

theorem keys_body : Lib.keys (body dataset) = ["artifact.json", "adjustment-policy.json"]
      ++ dataset.val.partitions.map physicalPath
      ++ ["encoding.json", "partition-index.json"] := by
  unfold body Lib.keys
  rw [map_append, map_append, map_map]
  rfl

theorem paths_inPartitions : ∀ path ∈ dataset.val.partitions.map physicalPath,
    InPartitions path := by
  intro path hpath
  obtain ⟨part, -, rfl⟩ := mem_map.mp hpath
  exact inPartitions_physicalPath part

theorem keys_nodup : (Lib.keys (body dataset)).Nodup := by
  have hpaths := @notMem_paths _ (@paths_inPartitions platform dataset)
  rw [keys_body]
  apply Nodup.append
  · apply Nodup.append
    · simp
    · exact dataset.paths_nodup fun _ _ => physicalPath_inj
    · intro name hname hpath
      have hall : ∀ name ∈ ["artifact.json", "adjustment-policy.json"],
          name.toList.take 11 ≠ "partitions/".toList := by simp
      exact hpaths (hall name hname) hpath
  · simp
  · intro name hname hlast
    have hall : ∀ name ∈ ["encoding.json", "partition-index.json"],
        name ∉ ["artifact.json", "adjustment-policy.json"]
          ∧ name.toList.take 11 ≠ "partitions/".toList := by simp
    obtain ⟨hfirst, hpath⟩ := hall name hlast
    rcases mem_append.mp hname with hname | hname
    · exact hfirst hname
    · exact hpaths hpath hname

theorem notMem_body {name : String} (hfirst : name ∉ ["artifact.json", "adjustment-policy.json"])
    (hlast : name ∉ ["encoding.json", "partition-index.json"])
    (hname : name.toList.take 11 ≠ "partitions/".toList) :
    name ∉ Lib.keys (body dataset) := by
  rw [keys_body]
  exact not_mem_append (not_mem_append hfirst
    (notMem_paths paths_inPartitions hname)) hlast

theorem checksums_notMem : "SHA256SUMS.json" ∉ Lib.keys (body dataset) :=
  notMem_body (by simp) (by simp) (by simp)

/-- What is staged is the body with its checksums. -/
theorem stage_eq : stage dataset = .ok (sealedFiles platform (body dataset)) := by
  have hnodup := @keys_nodup platform dataset
  unfold body at hnodup
  have hfront := hnodup
  unfold Lib.keys at hfront
  rw [map_append] at hfront
  have hfront := Nodup.of_append_left hfront
  have htables : dataset.val.partitions.foldl (fun files part =>
      setItem files (physicalPath part) (partitionTable part))
      [("artifact.json", jsonFile dataset.toCanonicalDict), ("adjustment-policy.json",
          jsonFile dataset.val.adjustmentPolicy.toCanonicalDict)]
      = [("artifact.json", jsonFile dataset.toCanonicalDict), ("adjustment-policy.json",
          jsonFile dataset.val.adjustmentPolicy.toCanonicalDict)]
        ++ dataset.val.partitions.map (fun part =>
          (physicalPath part, partitionTable part)) := by
    have hfold := foldl_setItem_eq hfront
    rw [foldl_map] at hfold
    exact hfold
  have hhead := @foldlM_createFile [("artifact.json", jsonFile dataset.toCanonicalDict),
      ("adjustment-policy.json", jsonFile dataset.val.adjustmentPolicy.toCanonicalDict)] []
    (by show (["artifact.json", "adjustment-policy.json"] : List String).Nodup
        simp)
  have hlast := foldlM_createFile hnodup
  simp only [foldlM_cons, foldlM_nil, bind_ok, pure_ok] at hhead hlast
  obtain ⟨one, hartifact, two, hpolicy, rfl⟩ := hhead
  obtain ⟨three, hencoding, four, hindex, rfl⟩ := hlast
  have hsums := createFile_ok (jsonFile (checksumsJson (checksums platform (body dataset))))
    (@checksums_notMem platform dataset)
  unfold stage writeJson
  rw [hartifact, ok_bind, hpolicy, ok_bind, nil_append, htables]
  dsimp only
  rw [hencoding, ok_bind]
  refine (congrArg (· >>= _) hindex).trans ?_
  rw [ok_bind]
  refine (congrArg (· >>= _) (checksumsOf_ok fun name => Iff.rfl)).trans ?_
  exact hsums

theorem lookup_body {path : String} {content : ByteArray} (hpath : path ≠ "SHA256SUMS.json")
    (h : (path, content) ∈ body dataset) :
    (sealedFiles platform (body dataset)).lookup path = some content := by
  rw [lookup_sealed hpath]
  exact (lookup_eq_some_iff keys_nodup).mpr h

theorem readFile_table {part : MarketDataPartition platform}
    (hpart : part ∈ dataset.val.partitions) :
    readFile (sealedFiles platform (body dataset)) (physicalPath part)
      = .ok (partitionTable part) := by
  apply readFile_ok
  apply lookup_body
  · intro heq
    have hin := inPartitions_physicalPath part
    rw [heq] at hin
    revert hin
    unfold InPartitions
    simp
  · exact mem_append_left _ (mem_append_right _ (mem_map.mpr ⟨part, hpart, rfl⟩))

-- ==== the index

def storedEntry (part : MarketDataPartition platform) : List (String × Json) :=
  sortBy (·.1) (indexEntry part)

theorem indexEntry_nodup (part : MarketDataPartition platform) :
    ((indexEntry part).map (·.1)).Nodup := by
  show (["partition_id", "content_hash", "symbol", "timeframe",
    "first_market_date", "last_market_date", "bar_count", "relative_path",
    "physical_path", "physical_format", "physical_schema",
    "physical_checksum"] : List String).Nodup
  simp

theorem indexEntry_canonical (part : MarketDataPartition platform) :
    (dict (indexEntry part)).Canonical := by
  apply canonical_dict (indexEntry_nodup part)
  simp [indexEntry, MarketDataPartition.reference, canonical_id]

theorem indexFields_nodup : ((indexFields dataset).map (·.1)).Nodup := nodup_singleton _

theorem indexFields_canonical : (dict (indexFields dataset)).Canonical := by
  apply canonical_dict indexFields_nodup
  intro field hfield
  obtain rfl := mem_singleton.mp hfield
  exact canonical_map fun part _ => indexEntry_canonical part

theorem encodingFields_nodup : ((encodingFields dataset).map (·.1)).Nodup := by
  show (["encoding_version", "logical_dataset_id", "logical_dataset_hash",
    "logical_hash_basis", "physical_hash_basis"] : List String).Nodup
  simp

theorem encodingFields_canonical : (dict (encodingFields dataset)).Canonical := by
  apply canonical_dict encodingFields_nodup
  simp [encodingFields, canonical_id]

theorem get_of_item {fields : List (String × Json)} {key : String}
    {value : Json} (h : item fields key = .ok value) :
    get fields key = value := by
  unfold get
  rw [lookup_of_item h]
  rfl

section Entry

variable (part : MarketDataPartition platform)

theorem entry_symbol : item (storedEntry part) "symbol" = .ok (.str part.val.symbol) := by
  unfold storedEntry
  rw [item_sorted (indexEntry_nodup part)]
  simp only [indexEntry, MarketDataPartition.reference, cons_append,
    item_cons, String.reduceEq, if_true, if_false]

theorem entry_timeframe : item (storedEntry part) "timeframe"
    = .ok (.str (StrEnum.text part.val.timeframe)) := by
  unfold storedEntry
  rw [item_sorted (indexEntry_nodup part)]
  simp only [indexEntry, MarketDataPartition.reference, cons_append,
    item_cons, String.reduceEq, if_true, if_false]

theorem entryPath_stored : entryPath platform (storedEntry part) = physicalPath part := by
  have hitem : item (storedEntry part) "physical_path" = .ok (.str (physicalPath part)) := by
    unfold storedEntry
    rw [item_sorted (indexEntry_nodup part)]
    simp only [indexEntry, MarketDataPartition.reference, cons_append,
      nil_append, item_cons, String.reduceEq, if_true, if_false]
  unfold entryPath
  rw [get_of_item hitem]
  rfl

theorem scopeKey_stored : scopeKey platform (storedEntry part)
    = toLex (part.val.symbol, StrEnum.text part.val.timeframe) := by
  unfold scopeKey
  rw [get_of_item (entry_symbol part), get_of_item (entry_timeframe part)]
  rfl

theorem projection_stored : projectionKeys.mapM (fun key => do
      return (key, ← item (storedEntry part) key))
      = .ok part.reference := by
  unfold storedEntry projectionKeys
  simp only [mapM_cons, mapM_nil, item_sorted (indexEntry_nodup part)]
  rfl

end Entry

def storedIndex (dataset : MarketDataDatasetArtifact platform) :
    PackageIndex platform :=
  { checksums := checksums platform (body dataset)
    artifactPayload := sortBy (·.1) dataset.fields
    policy := dataset.val.adjustmentPolicy
    entries := dataset.val.partitions.map storedEntry }

variable (hp : platform.Lossless)

include hp in
theorem read_encoding : readObject platform (sealedFiles platform (body dataset)) "encoding.json"
      = .ok (sortBy (·.1) (encodingFields dataset)) :=
  readObjectFile_json hp encodingFields_canonical (lookup_body (by simp)
      (mem_append_right _ mem_cons_self))

theorem get_encoding {key : String} {value : Json}
    (h : item (encodingFields dataset) key = .ok value) :
    get (sortBy (·.1) (encodingFields dataset)) key = value := by
  apply get_of_item
  rw [item_sorted encodingFields_nodup]
  exact h

theorem get_encoding_id : get (sortBy (·.1) (encodingFields dataset))
    "logical_dataset_id" = idText dataset.val.datasetId := by
  apply get_encoding
  simp only [encodingFields, item_cons, String.reduceEq, if_true, if_false]

theorem get_encoding_hash : get (sortBy (·.1) (encodingFields dataset))
    "logical_dataset_hash" = .str dataset.val.contentHash := by
  apply get_encoding
  simp only [encodingFields, item_cons, String.reduceEq, if_true, if_false]

theorem get_payload_id : get (sortBy (·.1) dataset.fields) "dataset_id"
    = idText dataset.val.datasetId := by
  apply get_of_item
  rw [item_sorted dataset.keys_nodup]
  simp only [MarketDataDatasetArtifact.fields, item_cons, if_true]

theorem get_payload_hash : get (sortBy (·.1) dataset.fields) "content_hash"
    = .str dataset.val.contentHash := by
  apply get_of_item
  rw [item_sorted dataset.keys_nodup]
  simp only [MarketDataDatasetArtifact.fields, item_cons, String.reduceEq, if_true, if_false]

include hp in
/-- The index of what was staged is read back. -/
theorem readPackageIndex_sealed : readPackageIndex platform (sealedFiles platform (body dataset))
      = .ok (storedIndex dataset) := by
  have hsums : readObject platform (sealedFiles platform (body dataset))
      "SHA256SUMS.json" = .ok ((checksums platform (body dataset)).map
        fun entry => (entry.1, .str entry.2)) := by
    rw [← sortBy_checksums]
    exact readObjectFile_json hp checksumsJson_canonical (lookup_checksums checksums_notMem)
  have hindex : readObject platform (sealedFiles platform (body dataset))
      "partition-index.json" = .ok (sortBy (·.1) (indexFields dataset)) :=
    readObjectFile_json hp indexFields_canonical (lookup_body (by simp) (mem_append_right _
        (mem_cons_of_mem _ mem_cons_self)))
  have hpolicy : readObject platform (sealedFiles platform (body dataset))
      "adjustment-policy.json" = .ok (sortBy (·.1) dataset.val.adjustmentPolicy.fields) :=
    readObjectFile_json hp dataset.val.adjustmentPolicy.canonical
      (lookup_body (by simp) (mem_append_left _ (mem_append_left _
          (mem_cons_of_mem _ mem_cons_self))))
  have hartifact : readObject platform (sealedFiles platform (body dataset))
      "artifact.json" = .ok (sortBy (·.1) dataset.fields) :=
    readObjectFile_json hp dataset.canonical (lookup_body (by simp) (mem_append_left _
        (mem_append_left _ mem_cons_self)))
  have hversion : get (sortBy (·.1) (encodingFields dataset))
      "encoding_version" = .str marketDataPackageEncodingV2 := by
    apply get_encoding
    simp only [encodingFields, item_cons, if_true]
  have hpartitions : get (sortBy (·.1) (indexFields dataset)) "partitions"
      = .arr (dataset.val.partitions.map fun part =>
        dict (indexEntry part)) := by
    apply get_of_item
    rw [item_sorted indexFields_nodup]
    simp only [indexFields, item_cons, if_true]
  have hentries : ∀ e, dictItems (.arr (dataset.val.partitions.map
      fun part => dict (indexEntry part))) e = .ok (dataset.val.partitions.map storedEntry) :=
    dictItems_map indexEntry dataset.val.partitions
  have hscope : isSortedSet id ((dataset.val.partitions.map storedEntry).map
      (scopeKey platform)) = true := by
    have hkeys : (dataset.val.partitions.map storedEntry).map
        (scopeKey platform) = dataset.val.partitions.map fun part =>
          (toLex (part.val.symbol, StrEnum.text part.val.timeframe) : String ×ₗ String) := by
      rw [map_map]
      apply map_congr_left
      intro part _
      rw [Function.comp_apply, scopeKey_stored]
    rw [hkeys]
    exact dataset.scopes_sorted
  have hfiles : ((dataset.val.partitions.map storedEntry).map
      (entryPath platform)).all (· ∈ (checksums platform (body dataset)).map (·.1)) = true := by
    have hpaths : (dataset.val.partitions.map storedEntry).map
        (entryPath platform) = dataset.val.partitions.map physicalPath := by
      rw [map_map]
      apply map_congr_left
      intro part _
      rw [Function.comp_apply, entryPath_stored]
    rw [hpaths, all_eq_true]
    intro path hpath
    apply decide_eq_true
    rw [mem_checksums, keys_body]
    exact mem_append_left _ (mem_append_right _ hpath)
  unfold readPackageIndex
  rw [hsums, ok_bind, readChecksums_ok, ok_bind, require_true sameNames_sealed,
    ok_bind, read_encoding hp, ok_bind, require_true hversion, ok_bind, hindex,
    ok_bind, hpartitions, hentries, ok_bind, require_true hscope, ok_bind,
    require_true hfiles, ok_bind, hartifact, ok_bind, hpolicy, ok_bind,
    PriceAdjustmentPolicy.from_fields dataset.policy_verified, ok_bind]
  rfl

-- ==== the partitions

include hp in
theorem read_bar {bar : CanonicalMarketBar platform} (h : bar.verifyIdentity = .ok ()) :
    (jsonObject platform (canonicalJson bar.toCanonicalDict)
      >>= CanonicalMarketBar.fromCanonicalDict) = .ok bar := by
  have hobject : jsonObject platform (canonicalJson bar.toCanonicalDict)
      = .ok (sortBy (·.1) bar.fields) := by
    unfold jsonObject
    rw [hp.loads_canonicalJson _ bar.canonical, orRaise_some, ok_bind]
    rfl
  rw [hobject, ok_bind]
  exact CanonicalMarketBar.from_fields h

include hp in
theorem readPartition_sealed (hverified : dataset.verifyIdentity = .ok ())
    {part : MarketDataPartition platform} (hpart : part ∈ dataset.val.partitions) :
    readPartition platform (sealedFiles platform (body dataset)) (storedEntry part) = .ok part := by
  have hcolumn : platform.readBarJson (partitionTable part) = some (part.val.bars.map fun bar =>
        canonicalJson bar.toCanonicalDict) := by
    unfold partitionTable
    rw [hp.readBarJson_writeTable, map_map]
    rfl
  have hbars : (part.val.bars.map fun bar =>
      canonicalJson bar.toCanonicalDict).mapM (fun value => do
        CanonicalMarketBar.fromCanonicalDict (← jsonObject platform value)) = .ok part.val.bars :=
    mapM_written fun bar hbar => read_bar hp (part.sound.verified bar hbar)
  have hcreated := MarketDataPartition.create_bars
    (MarketDataDatasetArtifact.partitions_verified hverified part hpart)
  unfold readPartition
  rw [entryPath_stored, readFile_table hpart, ok_bind, hcolumn, orRaise_some,
    ok_bind, hbars, ok_bind, entry_symbol, ok_bind, entry_timeframe, ok_bind,
    strOf_str, strOf_str, StrEnum.parse_text, ok_bind, hcreated, ok_bind]
  refine (congrArg (· >>= _) (projection_stored part)).trans ?_
  rw [ok_bind, require_true]
  · rfl
  · rfl

include hp in
theorem load_sealed (h : dataset.Genuine) {name : String} {enforce : Bool}
    (hname : enforce = true → name = dataset.val.datasetId.val) :
    load platform name (sealedFiles platform (body dataset)) enforce = .ok
        { root := name
          artifact := dataset
          bars := dataset.iterBars
          checksumsHash := platform.canonicalHash
            (checksumsJson (checksums platform (body dataset))) } := by
  have hpartitions : (dataset.val.partitions.map storedEntry).mapM
      (readPartition platform (sealedFiles platform (body dataset))) = .ok dataset.val.partitions :=
    mapM_written fun part hpart => readPartition_sealed hp h.verified hpart
  unfold load
  rw [readPackageIndex_sealed hp, ok_bind]
  unfold storedIndex
  rw [verify_sealed checksums_notMem, ok_bind, hpartitions, ok_bind,
    MarketDataDatasetArtifact.from_fields h, ok_bind, read_encoding hp, ok_bind,
    require_true ⟨get_encoding_id, get_encoding_hash⟩, ok_bind,
    require_true hname, ok_bind]
  rfl

end ColumnarV2

end MarketRegimeAlpha.MarketData
