/-
Every object of market data is read back from its dictionary.

A reader takes the fields of a dictionary by their keys, so it finds them
as they were written however they are sorted (`item_sorted`). What it
reads are the fields of an object that exists, which its constructor
accepts again (`construct_eq`).
-/
import MarketRegimeAlpha.MarketData.Dataset
import MarketRegimeAlpha.MarketData.Proofs.Values

namespace MarketRegimeAlpha.MarketData

open Lib List

variable {platform : Platform} {α : Type} {write : α → Json} {a : Option α}

theorem canonical_orNull (h : ∀ b, (write b).Canonical) : (orNull write a).Canonical := by
  cases a with
  | none => exact .null
  | some b => exact h b

theorem canonical_decimal (d : PlainDecimal) : (canonicalDecimal d).Canonical := .str _

theorem canonical_id (id : ArtifactId platform) : (idText id).Canonical := .str _

theorem canonical_map {l : List α}
    (h : ∀ a ∈ l, (write a).Canonical) : (Json.arr (l.map write)).Canonical := by
  apply Json.Canonical.arr
  intro item hitem
  obtain ⟨a, ha, rfl⟩ := mem_map.mp hitem
  exact h a ha

theorem canonical_texts (texts : List String) : (Json.arr (texts.map .str)).Canonical :=
  canonical_map fun text _ => .str text

-- ==== bars

theorem forall_of_forM {check : α → Except Raised Unit} {u : Unit} (h : a.forM check = .ok u) :
    ∀ b ∈ a, check b = .ok () := by
  intro b hb
  cases hb
  exact h

structure BarValues.Finite (bar : BarValues platform) : Prop where
  openPrice : |bar.openPrice.value| < floatOverflow
  high : |bar.high.value| < floatOverflow
  low : |bar.low.value| < floatOverflow
  close : |bar.close.value| < floatOverflow
  previousClose : ∀ d ∈ bar.previousClose, |d.value| < floatOverflow
  volume : |bar.volume.value| < floatOverflow
  amount : ∀ d ∈ bar.amount, |d.value| < floatOverflow
  turnoverRate : ∀ d ∈ bar.turnoverRate, |d.value| < floatOverflow
  adjustmentFactor : |bar.adjustmentFactor.value| < floatOverflow

theorem BarFields.finite_of_check {bar : BarFields platform}
    (h : bar.check = .ok ()) : bar.Finite := by
  iterate 7 obtain ⟨_, -, h⟩ := bind_ok.mp h
  obtain ⟨_, hopen, h⟩ := bind_ok.mp h
  obtain ⟨_, hhigh, h⟩ := bind_ok.mp h
  obtain ⟨_, hlow, h⟩ := bind_ok.mp h
  obtain ⟨_, hclose, h⟩ := bind_ok.mp h
  obtain ⟨_, hprevious, h⟩ := bind_ok.mp h
  obtain ⟨_, -, h⟩ := bind_ok.mp h
  obtain ⟨_, -, h⟩ := bind_ok.mp h
  obtain ⟨_, hvolume, h⟩ := bind_ok.mp h
  obtain ⟨_, hamount, h⟩ := bind_ok.mp h
  obtain ⟨_, hturnover, h⟩ := bind_ok.mp h
  obtain ⟨_, hfactor, -⟩ := bind_ok.mp h
  exact
    { openPrice := finite_of_requireDecimal hopen
      high := finite_of_requireDecimal hhigh
      low := finite_of_requireDecimal hlow
      close := finite_of_requireDecimal hclose
      previousClose := fun d hd => finite_of_requireDecimal (forall_of_forM hprevious d hd)
      volume := finite_of_requireDecimal hvolume
      amount := fun d hd => finite_of_requireDecimal (forall_of_forM hamount d hd)
      turnoverRate := fun d hd => finite_of_requireDecimal (forall_of_forM hturnover d hd)
      adjustmentFactor := finite_of_requireDecimal hfactor }

theorem unlessNull_decimal {label : String} {d : Option PlainDecimal}
    (h : ∀ b ∈ d, |b.value| < floatOverflow) :
    unlessNull (parseCanonicalDecimal label) (orNull canonicalDecimal d) = .ok d :=
  unlessNull_orNull (fun b hb => parse_canonicalDecimal (h b hb)) (fun _ => Json.noConfusion)

namespace CanonicalMarketBar

variable (bar : CanonicalMarketBar platform)

theorem schema_eq : bar.val.schemaVersion = marketBarSchemaVersion := by
  have h := bar.property
  obtain ⟨_, hschema, -⟩ := bind_ok.mp h
  exact require_ok.mp hschema

theorem keys_fields : bar.fields.map (·.1) = barKeys := rfl

theorem keys_nodup : (bar.fields.map (·.1)).Nodup := by
  rw [keys_fields]
  simp [barKeys]

theorem from_fields {bar : CanonicalMarketBar platform} (h : bar.verifyIdentity = .ok ()) :
    fromCanonicalDict (sortBy (·.1) bar.fields) = .ok bar := by
  have hfinite := BarFields.finite_of_check bar.property
  have hkeys : (bar.fields.map (·.1)).Perm barKeys := .refl _
  have hid : unlessNull (artifactId platform) (orNull idText bar.val.adjustmentFactorId)
        = .ok bar.val.adjustmentFactorId :=
    unlessNull_orNull (fun id _ => artifactId_idText id) (fun _ => Json.noConfusion)
  have hhash : unlessNull (fun value => Except.ok (strOf platform value))
      (orNull .str bar.val.adjustmentFactorHash) = .ok bar.val.adjustmentFactorHash :=
    unlessNull_orNull (fun _ _ => rfl) (fun _ => Json.noConfusion)
  unfold fromCanonicalDict
  rw [require_true (hasKeys_sorted hkeys), ok_bind]
  simp only [item_sorted bar.keys_nodup]
  simp only [fields, BarValues.payload, item_cons, String.reduceEq, if_true,
    if_false, ok_bind, strOf_str, artifactId_idText, StrEnum.parse_text,
    dateFromText_dateText, parse_utcSecond,
    parse_canonicalDecimal hfinite.openPrice,
    parse_canonicalDecimal hfinite.high, parse_canonicalDecimal hfinite.low,
    parse_canonicalDecimal hfinite.close,
    parse_canonicalDecimal hfinite.volume,
    parse_canonicalDecimal hfinite.adjustmentFactor,
    unlessNull_decimal hfinite.previousClose,
    unlessNull_decimal hfinite.amount,
    unlessNull_decimal hfinite.turnoverRate, hid, hhash]
  rw [@construct_eq _ _ _ bar]
  · rw [ok_bind, h, ok_bind]
    rfl
  · rw [← bar.schema_eq]

theorem canonical : bar.toCanonicalDict.Canonical := by
  apply canonical_dict bar.keys_nodup
  simp [fields, BarValues.payload, canonical_decimal, canonical_id,
    canonical_orNull canonical_decimal, canonical_orNull canonical_id,
    canonical_orNull Json.Canonical.str]

end CanonicalMarketBar

-- ==== factors

namespace AdjustmentFactorEvidence

theorem finite (factor : AdjustmentFactorEvidence platform) :
    |factor.val.factor.value| < floatOverflow := by
  have h := factor.property
  iterate 3 obtain ⟨_, -, h⟩ := bind_ok.mp h
  obtain ⟨_, hfactor, -⟩ := bind_ok.mp h
  exact finite_of_requireDecimal hfactor

variable (factor : AdjustmentFactorEvidence platform)

theorem keys_nodup : (factor.fields.map (·.1)).Nodup := by
  show (["factor_id", "content_hash", "schema_version", "symbol", "exchange",
    "effective_date", "available_at", "factor", "source_artifact_id",
    "source_content_hash"] : List String).Nodup
  simp

theorem keys_perm : (factor.fields.map (·.1)).Perm keys := by
  exact (@perm_append_comm _ ["factor_id", "content_hash"] ["schema_version"]).append_right _

theorem from_fields {factor : AdjustmentFactorEvidence platform}
    (h : factor.verifyIdentity = .ok ()) :
    fromCanonicalDict (sortBy (·.1) factor.fields) = .ok factor := by
  unfold fromCanonicalDict
  rw [require_true (hasKeys_sorted factor.keys_perm), ok_bind]
  simp only [item_sorted factor.keys_nodup]
  simp only [fields, FactorValues.payload, item_cons, String.reduceEq, if_true,
    if_false, ok_bind, strOf_str, artifactId_idText, StrEnum.parse_text,
    dateFromText_dateText, parse_utcSecond,
    parse_canonicalDecimal factor.finite]
  rw [@construct_eq _ _ _ factor]
  · rw [ok_bind, h, ok_bind]
    rfl
  · rfl

theorem canonical : factor.toCanonicalDict.Canonical := by
  apply canonical_dict factor.keys_nodup
  simp [fields, FactorValues.payload, canonical_decimal, canonical_id]

end AdjustmentFactorEvidence

-- ==== policy

namespace PriceAdjustmentPolicy

variable (policy : PriceAdjustmentPolicy platform)

theorem factors_verified : ∀ factor ∈ policy.val.factors, factor.verifyIdentity = .ok () := by
  have h := policy.property
  iterate 7 obtain ⟨_, -, h⟩ := bind_ok.mp h
  obtain ⟨_, hfactors, -⟩ := bind_ok.mp h
  exact forM_ok.mp hfactors

theorem keys_nodup : (policy.fields.map (·.1)).Nodup := by
  show (["policy_id", "policy_hash", "schema_version", "policy_version",
    "mode", "factors", "limitations"] : List String).Nodup
  simp

theorem keys_perm : (policy.fields.map (·.1)).Perm keys := by
  exact (@perm_append_comm _ ["policy_id", "policy_hash"] ["schema_version"]).append_right _

theorem from_fields {policy : PriceAdjustmentPolicy platform} (h : policy.verifyIdentity = .ok ()) :
    fromCanonicalDict (sortBy (·.1) policy.fields) = .ok policy := by
  have hfactors : ∀ e, dictItems (.arr (policy.val.factors.map (·.toCanonicalDict))) e
        = .ok (policy.val.factors.map fun factor =>
          sortBy (·.1) factor.fields) :=
    dictItems_map AdjustmentFactorEvidence.fields policy.val.factors
  have hread : (policy.val.factors.map fun factor =>
      sortBy (·.1) factor.fields).mapM AdjustmentFactorEvidence.fromCanonicalDict
        = .ok policy.val.factors :=
    mapM_written fun factor hfactor =>
      AdjustmentFactorEvidence.from_fields (policy.factors_verified factor hfactor)
  unfold fromCanonicalDict
  rw [require_true (hasKeys_sorted policy.keys_perm), ok_bind]
  simp only [item_sorted policy.keys_nodup]
  simp only [fields, PolicyValues.payload, item_cons, String.reduceEq, if_true,
    if_false, ok_bind, strOf_str, artifactId_idText, StrEnum.parse_text,
    textItems_map, hfactors, hread]
  rw [@construct_eq _ _ _ policy]
  · rw [ok_bind, h, ok_bind]
    rfl
  · rfl

theorem canonical : policy.toCanonicalDict.Canonical := by
  apply canonical_dict policy.keys_nodup
  have hfactors : (Json.arr (policy.val.factors.map
      (·.toCanonicalDict))).Canonical :=
    canonical_map fun factor _ => factor.canonical
  simp [fields, PolicyValues.payload, canonical_id, hfactors, canonical_texts]

end PriceAdjustmentPolicy

-- ==== coverage

variable (entry : String × Nat)

def countFields : List (String × Json) :=
  [("field", .str entry.1), ("count", .int entry.2)]

theorem countFields_nodup : ((countFields entry).map (·.1)).Nodup := by
  show (["field", "count"] : List String).Nodup
  simp

theorem stringTuple_timeframes (label : String) (values : List Timeframe) :
    MarketDataCoverage.stringTuple label (timeframesJson values)
      = .ok (values.map StrEnum.text) := by
  rw [← textItems_map (values.map StrEnum.text), map_map]
  rfl

theorem mapM_parse {α : Type} [StrEnum α] (values : List α) :
    (values.map StrEnum.text).mapM (StrEnum.parse α) = .ok values :=
  mapM_written fun value _ => StrEnum.parse_text value

namespace MarketDataCoverage

variable (coverage : MarketDataCoverage platform)

theorem counts_pos : ∀ entry ∈ coverage.val.missingFieldCounts, 0 < entry.2 := by
  have h := coverage.property
  iterate 9 obtain ⟨_, -, h⟩ := bind_ok.mp h
  obtain ⟨_, hpos, -⟩ := bind_ok.mp h
  exact require_ok.mp hpos

theorem keys_fields : coverage.fields.map (·.1) = keys := rfl

theorem keys_nodup : (coverage.fields.map (·.1)).Nodup := by
  rw [keys_fields]
  simp [keys]

/-- A coverage is read back. -/
theorem from_fields : fromCanonicalDict (sortBy (·.1) coverage.fields) = .ok coverage := by
  have hkeys : (coverage.fields.map (·.1)).Perm keys := .refl _
  have hraw : ∀ e, dictItems (.arr (coverage.val.missingFieldCounts.map
      fun entry => dict [("field", .str entry.1), ("count", .int entry.2)])) e
        = .ok (coverage.val.missingFieldCounts.map fun entry =>
          sortBy (·.1) (countFields entry)) :=
    dictItems_map countFields coverage.val.missingFieldCounts
  have hcanonical : (coverage.val.missingFieldCounts.map fun entry =>
      sortBy (·.1) (countFields entry)).all (hasKeys · ["field", "count"]) = true := by
    rw [all_map, all_eq_true]
    intro entry _
    exact hasKeys_sorted (.refl _)
  have hcounts : (coverage.val.missingFieldCounts.map fun entry =>
      sortBy (·.1) (countFields entry)).mapM (fun entry => do
        return (strOf platform (← item entry "field"),
          ← positiveInt "missing count" (← item entry "count")))
        = .ok coverage.val.missingFieldCounts := by
    apply mapM_written
    intro entry hentry
    have hpos := coverage.counts_pos entry hentry
    simp only [item_sorted (countFields_nodup entry)]
    simp only [countFields, item_cons, String.reduceEq, if_true, if_false,
      ok_bind, strOf_str, positiveInt_pos hpos]
    rfl
  have htexts : ∀ label (texts : List String),
      stringTuple label (.arr (texts.map .str)) = .ok texts :=
    fun label texts => textItems_map texts _
  unfold fromCanonicalDict
  rw [require_true (hasKeys_sorted hkeys), ok_bind]
  simp only [item_sorted coverage.keys_nodup]
  simp only [fields, item_cons, String.reduceEq, if_true, if_false, ok_bind,
    strOf_str, StrEnum.parse_text, htexts, stringTuple_timeframes, mapM_parse,
    hraw, hcounts, require_true hcanonical]
  exact construct_eq rfl

theorem canonical : coverage.toCanonicalDict.Canonical := by
  apply canonical_dict coverage.keys_nodup
  have htimeframes : ∀ values, (timeframesJson values).Canonical :=
    fun values => canonical_map fun _ _ => .str _
  have hcounts : (Json.arr (coverage.val.missingFieldCounts.map fun entry =>
      dict [("field", .str entry.1), ("count", .int entry.2)])).Canonical := by
    apply canonical_map
    intro entry _
    apply canonical_dict (countFields_nodup entry)
    simp [countFields]
  simp [fields, canonical_texts, htimeframes, hcounts]

end MarketDataCoverage

-- ==== partitions

theorem sortBy_of_isSorted {α β : Type} [LinearOrder β] {key : α → β}
    {l : List α} (h : isSorted (l.map key) = true) : sortBy key l = l := by
  have hsorted : l.map key = sortBy id (l.map key) := of_decide_eq_true h
  have hpairwise : (l.map key).Pairwise (· ≤ ·) := by
    rw [hsorted]
    exact sortBy_pairwise id _
  exact (pairwise_map.mp hpairwise).insertionSort_eq

structure PartitionFields.Sound (part : PartitionFields platform) : Prop where
  schema : part.schemaVersion = marketDataPartitionSchema
  count : part.barCount = part.bars.length ∧ 0 < part.barCount
  path : part.relativePath = partitionPath part.symbol part.timeframe
  sorted : isSorted (part.bars.map CanonicalMarketBar.eventKey) = true
  scope : ∀ bar ∈ part.bars, bar.val.symbol = part.symbol ∧ bar.val.timeframe = part.timeframe
  first : part.bars.head?.map (·.val.marketDate) = some part.firstMarketDate
  last : part.bars.getLast?.map (·.val.marketDate) = some part.lastMarketDate
  verified : ∀ bar ∈ part.bars, bar.verifyIdentity = .ok ()

namespace MarketDataPartition

theorem sound (part : MarketDataPartition platform) : part.val.Sound := by
  have h := part.property
  obtain ⟨_, hschema, h⟩ := bind_ok.mp h
  obtain ⟨_, -, h⟩ := bind_ok.mp h
  obtain ⟨_, hcount, h⟩ := bind_ok.mp h
  obtain ⟨_, hpath, h⟩ := bind_ok.mp h
  obtain ⟨_, hsorted, h⟩ := bind_ok.mp h
  obtain ⟨_, hscope, h⟩ := bind_ok.mp h
  obtain ⟨_, hfirst, h⟩ := bind_ok.mp h
  obtain ⟨_, hlast, h⟩ := bind_ok.mp h
  exact
    { schema := require_ok.mp hschema
      count := require_ok.mp hcount
      path := require_ok.mp hpath
      sorted := require_ok.mp hsorted
      scope := require_ok.mp hscope
      first := require_ok.mp hfirst
      last := require_ok.mp hlast
      verified := forM_ok.mp h }

variable {part : MarketDataPartition platform}

theorem create_bars (h : part.verifyIdentity = .ok ()) :
    create part.val.symbol part.val.timeframe part.val.bars = .ok part := by
  obtain ⟨hhash, hid⟩ := verifyContent_ok.mp h
  have hhash' : part.val.contentHash = platform.canonicalHash
      (dict (partitionPayload part.val.symbol part.val.timeframe part.val.bars)) := hhash
  have hsound := part.sound
  obtain ⟨first, hfirst, hfirstDate⟩ := Option.map_eq_some_iff.mp hsound.first
  obtain ⟨last, hlast, hlastDate⟩ := Option.map_eq_some_iff.mp hsound.last
  have hpartitionId : construct (validateIdentity platform)
      ("market-data-partition-" ++ shortDigest (platform.canonicalHash
        (dict (partitionPayload part.val.symbol part.val.timeframe
          part.val.bars)))) = .ok part.val.partitionId :=
    construct_eq hid.symm
  unfold create
  rw [sortBy_of_isSorted hsound.sorted]
  dsimp only
  rw [hfirst, orRaise_some, ok_bind, hlast, orRaise_some, ok_bind,
    hpartitionId, ok_bind, @construct_eq _ _ _ part]
  · rw [ok_bind, h, ok_bind]
    rfl
  · rw [← hsound.schema, hfirstDate, hlastDate, ← hsound.count.1, ← hsound.path, ← hhash']

theorem keys_fields (part : MarketDataPartition platform) : part.fields.map (·.1) = keys := rfl

theorem keys_nodup (part : MarketDataPartition platform) : (part.fields.map (·.1)).Nodup := by
  rw [keys_fields]
  simp [keys]

theorem mapM_bars (part : MarketDataPartition platform) :
    (part.val.bars.map fun bar => sortBy (·.1) bar.fields).mapM
      CanonicalMarketBar.fromCanonicalDict = .ok part.val.bars :=
  mapM_written fun bar hbar => CanonicalMarketBar.from_fields (part.sound.verified bar hbar)

theorem from_fields (h : part.verifyIdentity = .ok ()) :
    fromCanonicalDict (sortBy (·.1) part.fields) = .ok part := by
  have hkeys : (part.fields.map (·.1)).Perm keys := .refl _
  have hbars : ∀ e, dictItems (.arr (part.val.bars.map (·.toCanonicalDict))) e
        = .ok (part.val.bars.map fun bar => sortBy (·.1) bar.fields) :=
    dictItems_map CanonicalMarketBar.fields part.val.bars
  unfold fromCanonicalDict
  rw [require_true (hasKeys_sorted hkeys), ok_bind]
  simp only [item_sorted part.keys_nodup]
  simp only [fields, payload, partitionPayload, item_cons, String.reduceEq,
    if_true, if_false, ok_bind, strOf_str, StrEnum.parse_text, hbars,
    part.mapM_bars, create_bars h]
  rw [require_true ⟨rfl, trivial⟩]
  rfl

theorem canonical (part : MarketDataPartition platform) :
    part.toCanonicalDict.Canonical := by
  apply canonical_dict part.keys_nodup
  have hbars : (Json.arr (part.val.bars.map
      (·.toCanonicalDict))).Canonical :=
    canonical_map fun bar _ => bar.canonical
  simp [fields, payload, partitionPayload, canonical_id, hbars]

theorem reference_nodup (part : MarketDataPartition platform) :
    (part.reference.map (·.1)).Nodup := by
  show (["partition_id", "content_hash", "symbol", "timeframe",
    "first_market_date", "last_market_date", "bar_count", "relative_path"] : List String).Nodup
  simp

theorem reference_canonical (part : MarketDataPartition platform) :
    part.referenceDict.Canonical := by
  apply canonical_dict part.reference_nodup
  simp [reference, canonical_id]

end MarketDataPartition

-- ==== datasets

variable (reference : ArtifactId platform × String)

def referenceFields : List (String × Json) :=
  [("artifact_id", idText reference.1), ("content_hash", .str reference.2)]

theorem referenceFields_nodup : ((referenceFields reference).map (·.1)).Nodup := by
  show (["artifact_id", "content_hash"] : List String).Nodup
  simp

/-- A dataset whose hashes are those of its parts, and whose coverage is
that of its bars. -/
structure MarketDataDatasetArtifact.Genuine
    (dataset : MarketDataDatasetArtifact platform) : Prop where
  verified : dataset.verifyIdentity = .ok ()
  covered : buildCoverage dataset.val.bars dataset.val.coverage.val.expectedSymbols
    dataset.val.coverage.val.expectedTimeframes = .ok dataset.val.coverage

namespace MarketDataDatasetArtifact

theorem schema_eq (dataset : MarketDataDatasetArtifact platform) :
    dataset.val.schemaVersion = marketDataDatasetSchema := by
  have h := dataset.property
  obtain ⟨_, hschema, -⟩ := bind_ok.mp h
  exact require_ok.mp hschema

/-- A dataset has partitions, each of them has bars, and it counts them
all. -/
theorem barCount_pos (dataset : MarketDataDatasetArtifact platform) : 0 < dataset.val.barCount := by
  have h := dataset.property
  obtain ⟨_, -, h⟩ := bind_ok.mp h
  obtain ⟨_, -, h⟩ := bind_ok.mp h
  obtain ⟨_, hpartitions, h⟩ := bind_ok.mp h
  obtain ⟨_, -, h⟩ := bind_ok.mp h
  obtain ⟨_, hcount, -⟩ := bind_ok.mp h
  obtain ⟨part, rest, hcons⟩ := exists_cons_of_ne_nil (require_ok.mp hpartitions)
  have hpos := part.sound.count.2
  rw [require_ok.mp hcount, hcons, map_cons, sum_cons]
  omega

theorem policy_verified (dataset : MarketDataDatasetArtifact platform) :
    dataset.val.adjustmentPolicy.verifyIdentity = .ok () := by
  have h := dataset.property
  iterate 10 obtain ⟨_, -, h⟩ := bind_ok.mp h
  obtain ⟨_, hpolicy, -⟩ := bind_ok.mp h
  exact hpolicy

variable {dataset : MarketDataDatasetArtifact platform}

theorem partitions_verified (h : dataset.verifyIdentity = .ok ()) :
    ∀ part ∈ dataset.val.partitions, part.verifyIdentity = .ok () := by
  obtain ⟨_, hpartitions, -⟩ := bind_ok.mp h
  exact forM_ok.mp hpartitions

theorem keys_fields (dataset : MarketDataDatasetArtifact platform) :
    dataset.fields.map (·.1) = keys := rfl

theorem keys_nodup (dataset : MarketDataDatasetArtifact platform) :
    (dataset.fields.map (·.1)).Nodup := by
  rw [keys_fields]
  simp [keys]

theorem mapM_references (dataset : MarketDataDatasetArtifact platform) :
    (dataset.val.sourceManifestReferences.map fun reference =>
      sortBy (·.1) (referenceFields reference)).mapM (fun entry => do
        return (← artifactId platform (← item entry "artifact_id"),
          strOf platform (← item entry "content_hash")))
      = .ok dataset.val.sourceManifestReferences := by
  apply mapM_written
  intro reference _
  simp only [item_sorted (referenceFields_nodup reference)]
  simp only [referenceFields, item_cons, String.reduceEq, if_true, if_false,
    ok_bind, strOf_str, artifactId_idText]
  rfl

/-- A genuine dataset is read back, given its partitions and its
policy. -/
theorem from_fields (h : dataset.Genuine) :
    fromCanonicalDict (sortBy (·.1) dataset.fields) dataset.val.partitions
      dataset.val.adjustmentPolicy = .ok dataset := by
  have hkeys : (dataset.fields.map (·.1)).Perm keys := .refl _
  have hreferences : ∀ e, dictItems (.arr (dataset.val.sourceManifestReferences.map fun reference =>
        dict [("artifact_id", idText reference.1), ("content_hash", .str reference.2)])) e
        = .ok (dataset.val.sourceManifestReferences.map fun reference =>
          sortBy (·.1) (referenceFields reference)) :=
    dictItems_map referenceFields dataset.val.sourceManifestReferences
  have hcanonical : (dataset.val.sourceManifestReferences.map fun reference =>
      sortBy (·.1) (referenceFields reference)).all
        (hasKeys · ["artifact_id", "content_hash"]) = true := by
    rw [all_map, all_eq_true]
    intro reference _
    exact hasKeys_sorted (.refl _)
  have hpartitions : ∀ e, dictItems (.arr (dataset.val.partitions.map (·.referenceDict))) e
        = .ok (dataset.val.partitions.map fun part =>
          sortBy (·.1) part.reference) :=
    dictItems_map MarketDataPartition.reference dataset.val.partitions
  have hprojection : dataset.val.partitions.map (·.referenceDict)
      = (dataset.val.partitions.map fun part =>
        sortBy (·.1) part.reference).map Json.obj := by
    rw [map_map]
    rfl
  have hcoverage : dataset.val.coverage.toCanonicalDict.fields?
      = some (sortBy (·.1) dataset.val.coverage.fields) := rfl
  have hcovered : buildCoverage (dataset.val.partitions.flatMap (·.val.bars))
      dataset.val.coverage.val.expectedSymbols
      dataset.val.coverage.val.expectedTimeframes = .ok dataset.val.coverage := h.covered
  have hcount : ∀ label, positiveInt label (.int dataset.val.barCount) = .ok dataset.val.barCount :=
    fun label => positiveInt_pos dataset.barCount_pos
  have hreadReferences := dataset.mapM_references
  have hreadCoverage := dataset.val.coverage.from_fields
  unfold fromCanonicalDict
  rw [require_true (hasKeys_sorted hkeys), ok_bind]
  simp only [item_sorted dataset.keys_nodup]
  simp only [fields, DatasetValues.payload, item_cons, String.reduceEq,
    if_true, if_false, ok_bind, strOf_str, artifactId_idText,
    StrEnum.parse_text, dateFromText_dateText, parse_utcSecond, textItems_map,
    hreferences, require_true hcanonical, hpartitions,
    require_true hprojection, hcoverage, orRaise_some, hreadCoverage, hcovered,
    hcount, hreadReferences]
  rw [require_true ⟨trivial, trivial⟩, ok_bind, require_true trivial, ok_bind,
    @construct_eq _ _ _ dataset]
  · rw [ok_bind, h.verified, ok_bind]
    rfl
  · rw [← dataset.schema_eq]

theorem canonical (dataset : MarketDataDatasetArtifact platform) :
    dataset.toCanonicalDict.Canonical := by
  apply canonical_dict dataset.keys_nodup
  have hpartitions : (Json.arr (dataset.val.partitions.map
      (·.referenceDict))).Canonical :=
    canonical_map fun part _ => part.reference_canonical
  have hreferences : (Json.arr (dataset.val.sourceManifestReferences.map
      fun reference => dict [("artifact_id", idText reference.1),
        ("content_hash", .str reference.2)])).Canonical := by
    apply canonical_map
    intro reference _
    apply canonical_dict (referenceFields_nodup reference)
    simp [referenceFields, canonical_id]
  have hcoverage := dataset.val.coverage.canonical
  simp [fields, DatasetValues.payload, canonical_id, canonical_texts,
    hpartitions, hreferences, hcoverage]

end MarketDataDatasetArtifact

end MarketRegimeAlpha.MarketData
