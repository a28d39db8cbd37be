/-
Files that are written are read back, and a package whose checksums were
taken last passes its verification.

# The files of a package

A package is a body and the checksums of the body (`sealedFiles`). The
names of the body are distinct and the checksums are not among them, so
every file of the body is found in the package as it was in the body
(`lookup_sealed`), and each has the checksum that was taken of it
(`verify_sealed`).
-/
import MarketRegimeAlpha.MarketData.Package
import MarketRegimeAlpha.MarketData.Proofs.Records

namespace MarketRegimeAlpha.MarketData

open Lib List

variable {platform : Platform}

-- ==== one file

theorem fromUTF8?_toUTF8 (text : String) : String.fromUTF8? text.toUTF8 = some text := by
  unfold String.fromUTF8?
  have hvalid : text.toUTF8.IsValidUTF8 := text.isValidUTF8
  simp only [hvalid, dite_true]
  rfl

variable {files : Package} {fields : List (String × Json)} {path : String}

theorem readFile_ok {content : ByteArray} (h : files.lookup path = some content) :
    readFile files path = .ok content := by
  unfold readFile
  rw [h]
  rfl

theorem readObjectFile_json (hp : platform.Lossless) {path invalid notAnObject : String}
    (hcanonical : (dict fields).Canonical) (h : files.lookup path = some (jsonFile (dict fields))) :
    readObjectFile platform invalid notAnObject files path = .ok (sortBy (·.1) fields) := by
  unfold readObjectFile jsonFile at *
  rw [h, orRaise_some, ok_bind, fromUTF8?_toUTF8, orRaise_some, ok_bind,
    hp.loads_line _ hcanonical, orRaise_some, ok_bind, fields?_dict]
  rfl

/-- What `item` finds is what `lookup` finds. -/
theorem lookup_of_item {key : String} {value : Json} (h : item fields key = .ok value) :
    fields.lookup key = some value := by
  unfold item at h
  split at h
  next found hfound =>
    injection h with h
    rw [hfound, h]
  next => cases h

theorem sameNames_ok {names names' : List String} (h : ∀ name, name ∈ names ↔ name ∈ names') :
    sameNames names names' = true := by
  unfold sameNames
  rw [Bool.and_eq_true, all_eq_true, all_eq_true]
  exact ⟨fun name hname => decide_eq_true ((h name).mp hname),
    fun name hname => decide_eq_true ((h name).mpr hname)⟩

theorem createFile_ok (content : ByteArray) (h : path ∉ Lib.keys files) :
    createFile files path content = .ok (files ++ [(path, content)]) := by
  unfold createFile
  rw [require_true (lookup_eq_none.mpr h), ok_bind]
  rfl

theorem foldlM_createFile {items files : Package} (hkeys : (Lib.keys (files ++ items)).Nodup) :
    items.foldlM (fun files file => createFile files file.1 file.2) files
      = .ok (files ++ items) := by
  induction items generalizing files with
  | nil => rw [append_nil]; rfl
  | cons file items ih =>
    have hfresh : file.1 ∉ Lib.keys files := by
      intro hmem
      unfold Lib.keys at hkeys hmem
      rw [map_append, map_cons] at hkeys
      exact disjoint_of_nodup_append hkeys hmem mem_cons_self
    have hassoc : files ++ [file] ++ items = files ++ file :: items := by
      rw [append_assoc, singleton_append]
    rw [foldlM_cons, createFile_ok file.2 hfresh, ok_bind,
      ih (by rw [hassoc]; exact hkeys), hassoc]

-- ==== the checksums

def checksums (platform : Platform) (body : Package) : List (String × String) :=
  (sortedDistinct (Lib.keys body)).map fun name =>
    (name, platform.fileHash ((body.lookup name).getD ByteArray.empty))

/-- A body with its checksums. -/
def sealedFiles (platform : Platform) (body : Package) : Package :=
  body ++ [("SHA256SUMS.json", jsonFile (checksumsJson (checksums platform body)))]

section Sealed

variable {body : Package} {name : String}

theorem keys_checksums : (checksums platform body).map (·.1) = sortedDistinct (Lib.keys body) := by
  unfold checksums
  rw [map_map]
  exact map_id _

theorem mem_checksums : name ∈ (checksums platform body).map (·.1) ↔ name ∈ Lib.keys body := by
  rw [keys_checksums, mem_sortedDistinct]

theorem checksumsOf_ok {names : List String}
    (hnames : ∀ name, name ∈ names ↔ name ∈ Lib.keys body) :
    checksumsOf platform body names = .ok (checksums platform body) := by
  unfold checksumsOf checksums
  rw [sortedDistinct_congr hnames]
  apply mapM_ok_map
  intro name hname
  rw [mem_sortedDistinct] at hname
  obtain ⟨content, hcontent⟩ := mem_keys.mp hname
  rw [readFile_ok hcontent, hcontent]
  rfl

theorem checksums_nodup : (((checksums platform body).map fun entry =>
      (entry.1, Json.str entry.2)).map (·.1)).Nodup := by
  rw [map_map]
  show ((checksums platform body).map (·.1)).Nodup
  rw [keys_checksums]
  exact (sortedDistinct_pairwise _).imp ne_of_lt

theorem checksumsJson_canonical : (checksumsJson (checksums platform body)).Canonical := by
  apply canonical_dict checksums_nodup
  intro field hfield
  obtain ⟨entry, -, rfl⟩ := mem_map.mp hfield
  exact .str _

theorem sortBy_checksums : sortBy (·.1) ((checksums platform body).map fun entry =>
      (entry.1, Json.str entry.2))
      = (checksums platform body).map fun entry => (entry.1, .str entry.2) := by
  have hsorted : (((checksums platform body).map fun entry =>
      (entry.1, Json.str entry.2)).map (·.1)).Pairwise (· ≤ ·) := by
    rw [map_map]
    show ((checksums platform body).map (·.1)).Pairwise (· ≤ ·)
    rw [keys_checksums]
    exact (sortedDistinct_pairwise _).imp le_of_lt
  exact (pairwise_map.mp hsorted).insertionSort_eq

theorem readChecksums_ok (e : Raised) : readChecksums ((checksums platform body).map fun entry =>
      (entry.1, .str entry.2)) e = .ok (checksums platform body) :=
  mapM_written fun _ _ => rfl

theorem lookup_sealed (hname : name ≠ "SHA256SUMS.json") :
    (sealedFiles platform body).lookup name = body.lookup name := by
  unfold sealedFiles
  rw [lookup_append]
  have hlast : [("SHA256SUMS.json",
      jsonFile (checksumsJson (checksums platform body)))].lookup name = none := by
    rw [lookup_cons, beq_eq_false_iff_ne.mpr hname]
    rfl
  rw [hlast, Option.or_none]

theorem lookup_checksums (hbody : "SHA256SUMS.json" ∉ Lib.keys body) :
    (sealedFiles platform body).lookup "SHA256SUMS.json"
      = some (jsonFile (checksumsJson (checksums platform body))) := by
  unfold sealedFiles
  rw [lookup_append, lookup_eq_none.mpr hbody, Option.none_or, lookup_cons_self]

theorem verify_sealed (hbody : "SHA256SUMS.json" ∉ Lib.keys body) (encoding : String) :
    (checksums platform body).forM
      (verifyChecksum platform (sealedFiles platform body) encoding) = .ok () := by
  apply forM_ok.mpr
  intro entry hentry
  have hname : entry.1 ∈ Lib.keys body := mem_checksums.mp (mem_map_of_mem hentry)
  have hne : entry.1 ≠ "SHA256SUMS.json" := by
    intro heq
    exact hbody (heq ▸ hname)
  obtain ⟨name, -, rfl⟩ := mem_map.mp hentry
  obtain ⟨content, hcontent⟩ := mem_keys.mp hname
  have hread := readFile_ok ((@lookup_sealed platform body _ hne).trans hcontent)
  unfold verifyChecksum
  rw [hread, ok_bind, require_true]
  rw [hcontent]
  rfl

theorem sameNames_sealed : sameNames ((sealedFiles platform body).map (·.1))
      ("SHA256SUMS.json" :: (checksums platform body).map (·.1)) = true := by
  have hmem : ∀ name, name ∈ (sealedFiles platform body).map (·.1)
      ↔ name ∈ "SHA256SUMS.json" :: (checksums platform body).map (·.1) := by
    intro name
    unfold sealedFiles
    rw [map_append, mem_append, mem_cons, mem_checksums]
    show name ∈ Lib.keys body ∨ name ∈ ["SHA256SUMS.json"] ↔ _
    rw [mem_singleton, or_comm]
  exact sameNames_ok hmem

end Sealed

end MarketRegimeAlpha.MarketData
