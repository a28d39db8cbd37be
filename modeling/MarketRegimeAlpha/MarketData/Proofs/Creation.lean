/-
What is created is genuine.

The coverage of a list of bars does not depend on their order
(`buildCoverage_perm`), and the partitions of a dataset hold the bars it
was created from (`bars_perm`). So the coverage that is built again from
the partitions is the one that was built from the bars.
-/
import MarketRegimeAlpha.MarketData.Proofs.Records

namespace MarketRegimeAlpha.MarketData

open Lib List

variable {platform : Platform}

-- ==== coverage

theorem sortBy_dedup_perm {α β : Type} [DecidableEq α] [LinearOrder β]
    {key : α → β} (hkey : Function.Injective key) {l l' : List α}
    (h : l.Perm l') : sortBy key l.dedup = sortBy key l'.dedup :=
  sortBy_eq_of_perm h.dedup ((nodup_dedup l).map hkey)

theorem buildCoverage_perm {bars bars' : List (CanonicalMarketBar platform)} (h : bars.Perm bars')
    (expectedSymbols : List String) (expectedTimeframes : List Timeframe) :
    buildCoverage bars expectedSymbols expectedTimeframes
      = buildCoverage bars' expectedSymbols expectedTimeframes := by
  have hobserved : ∀ key, key ∈ bars.map (fun bar =>
      (bar.val.symbol, bar.val.timeframe)) ↔ key ∈ bars'.map (fun bar =>
        (bar.val.symbol, bar.val.timeframe)) := fun key =>
    (h.map _).mem_iff
  have hsymbols : sortBy id (bars.map (·.val.symbol)).dedup
      = sortBy id (bars'.map (·.val.symbol)).dedup :=
    sortBy_dedup_perm Function.injective_id (h.map _)
  have htimeframes : sortBy StrEnum.text (bars.map (·.val.timeframe)).dedup
      = sortBy StrEnum.text (bars'.map (·.val.timeframe)).dedup :=
    sortBy_dedup_perm (fun _ _ => StrEnum.text_inj) (h.map _)
  unfold buildCoverage
  simp only [hobserved, hsymbols, htimeframes, h.countP_eq]

-- ==== partitions

theorem MarketDataPartition.bars_of_create {symbol : String} {timeframe : Timeframe}
    {bars : List (CanonicalMarketBar platform)} {part : MarketDataPartition platform}
    (h : create symbol timeframe bars = .ok part) :
    part.val.bars.Perm bars := by
  obtain ⟨first, -, h⟩ := bind_ok.mp h
  obtain ⟨last, -, h⟩ := bind_ok.mp h
  obtain ⟨partitionId, -, h⟩ := bind_ok.mp h
  obtain ⟨created, hcreated, h⟩ := bind_ok.mp h
  obtain ⟨_, -, h⟩ := bind_ok.mp h
  rw [pure_ok] at h
  subst h
  rw [val_of_construct hcreated]
  exact sortBy_perm _ _

theorem groupBars_perm (bars : List (CanonicalMarketBar platform)) :
    ((groupBars bars).flatMap (·.2)).Perm bars := by
  unfold groupBars
  rw [groupBy_eq, flatMap_map]
  refine flatMap_filter_perm (fun bar : CanonicalMarketBar platform =>
    (bar.val.symbol, bar.val.timeframe)) (nodup_firsts _) ?_
  intro bar hbar
  exact mem_firsts.mpr (mem_map_of_mem hbar)

theorem flatMap_mapM_perm {α β γ : Type} {f : α → Except Raised β} {g : β → List γ} {k : α → List γ}
    (hf : ∀ a b, f a = .ok b → (g b).Perm (k a)) :
    ∀ {l : List α} {l' : List β}, l.mapM f = .ok l' → (l'.flatMap g).Perm (l.flatMap k) := by
  intro l
  induction l with
  | nil =>
    intro l' h
    rw [mapM_nil, pure_ok] at h
    subst h
    exact .refl _
  | cons a l ih =>
    intro l' h
    simp only [mapM_cons, bind_ok, pure_ok] at h
    obtain ⟨b, hb, l₀, hl₀, rfl⟩ := h
    exact (hf a b hb).append (ih hl₀)

-- ==== datasets

namespace MarketDataDatasetArtifact

theorem genuine_of_create {decisionTime createdAt : UtcSecond}
    {bars : List (CanonicalMarketBar platform)}
    {expectedSymbols : List String} {expectedTimeframes : List Timeframe}
    {adjustmentPolicy : PriceAdjustmentPolicy platform}
    {sourceManifestReferences : List (ArtifactId platform × String)}
    {dataEligibility : DataEligibility} {formalPitStatus : FormalPitStatus}
    {limitations : List String} {dataset : MarketDataDatasetArtifact platform}
    (h : create decisionTime createdAt bars expectedSymbols expectedTimeframes
      adjustmentPolicy sourceManifestReferences dataEligibility
      formalPitStatus limitations = .ok dataset) : dataset.Genuine := by
  obtain ⟨_, -, h⟩ := bind_ok.mp h
  obtain ⟨_, -, h⟩ := bind_ok.mp h
  obtain ⟨partitions, hpartitions, h⟩ := bind_ok.mp h
  obtain ⟨coverage, hcoverage, h⟩ := bind_ok.mp h
  obtain ⟨firstMarketDate, -, h⟩ := bind_ok.mp h
  obtain ⟨lastMarketDate, -, h⟩ := bind_ok.mp h
  obtain ⟨datasetId, -, h⟩ := bind_ok.mp h
  obtain ⟨created, hcreated, h⟩ := bind_ok.mp h
  obtain ⟨_, hverified, h⟩ := bind_ok.mp h
  rw [pure_ok] at h
  subst h
  have hval := val_of_construct hcreated
  have hexpected := val_of_construct hcoverage
  have hbars : (partitions.flatMap (·.val.bars)).Perm
      (sortBy CanonicalMarketBar.datasetKey bars) := by
    have hgroups := flatMap_mapM_perm (fun group part hpart =>
      MarketDataPartition.bars_of_create hpart) hpartitions
    exact hgroups.trans (((sortBy_perm _ _).flatMap_right _).trans (groupBars_perm _))
  refine ⟨hverified, ?_⟩
  have hrebuilt := buildCoverage_perm hbars coverage.val.expectedSymbols
    coverage.val.expectedTimeframes
  rw [hval]
  show buildCoverage (partitions.flatMap (·.val.bars)) _ _ = _
  rw [hrebuilt, hexpected]
  exact hcoverage

end MarketDataDatasetArtifact

end MarketRegimeAlpha.MarketData
