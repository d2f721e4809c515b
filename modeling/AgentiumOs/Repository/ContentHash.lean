import AgentiumOs.Repository.Entry
import AgentiumOs.Lib.JsonCode

/-! What the content hash of a source bundle says about the bundle. As far as digest
and text tell their arguments apart, the hash determines the sections that were fed,
and the sections determine the files and the manifest up to the order of its keys. -/

namespace AgentiumOs.Repository

open List Lib Lib.Framing
open Lib.Json (Value)

namespace SourceBundle

/-- Files whose paths are told apart and have no NUL. -/
structure WellNamed (files : List SourceFile) : Prop where
  distinct : (files.map SourceFile.path).Nodup
  nulFree : ∀ f ∈ files, (hashFile f).NulFree

/-- No text of a bundle is longer than a string can be. -/
structure Fits (H : Hashing) (b : SourceBundle) : Prop where
  manifest : (canonicalJson H b.manifest.value).length < 2 ^ 63
  files : ∀ f ∈ b.tsSources ++ b.bamlSources, (utf8 f.path).length < 2 ^ 63 ∧ (utf8 f.content).length < 2 ^ 63

theorem hashFile_injective : Function.Injective hashFile := by
  rintro ⟨p, c⟩ ⟨q, d⟩ h
  cases h
  rfl

theorem sortByPath_eq_iff (h : WellNamed files) (h' : WellNamed files') :
    sortByPath (files.map hashFile) = sortByPath (files'.map hashFile) ↔ ∀ f, f ∈ files ↔ f ∈ files' := by
  have hp : ∀ fs : List SourceFile, (fs.map hashFile).map HashInputFile.path = fs.map SourceFile.path :=
    fun fs => by rw [map_map]; rfl
  rw [sortByPath, sortByPath, StableSort.insertionSort_eq_iff_perm (by rw [hp]; exact h.distinct)
    (by rw [hp]; exact h'.distinct), map_perm_map_iff hashFile_injective]
  exact perm_ext_iff_of_nodup h.distinct.of_map h'.distinct.of_map

/-- Sections of two kinds, the first before the second, are told apart by their tags. -/
theorem fileSections_append_inj
    (h : fileSections "ts" files ++ fileSections "baml" others =
      fileSections "ts" files' ++ fileSections "baml" others') :
    fileSections "ts" files = fileSections "ts" files' ∧
      fileSections "baml" others = fileSections "baml" others' := by
  have hts : ∀ fs gs : List HashInputFile,
      (fileSections "ts" fs ++ fileSections "baml" gs).filter (fun r => r.tag = utf8 "ts") =
        fileSections "ts" fs := by
    intro fs gs
    rw [filter_append, filter_eq_self.mpr, filter_eq_nil_iff.mpr, append_nil]
    · intro r hr
      obtain ⟨g, -, rfl⟩ := mem_map.mp hr
      exact show ¬ decide (utf8 "baml" = utf8 "ts") = true by decide
    · intro r hr
      obtain ⟨f, -, rfl⟩ := mem_map.mp hr
      exact decide_eq_true rfl
  have hf : fileSections "ts" files = fileSections "ts" files' := by
    rw [← hts files others, h, hts]
  rw [hf] at h
  exact ⟨hf, append_cancel_left h⟩

theorem sections_eq_iff (H : Hashing) {a b : SourceBundle} (hts : WellNamed a.tsSources)
    (hbaml : WellNamed a.bamlSources) (hts' : WellNamed b.tsSources) (hbaml' : WellNamed b.bamlSources) :
    sections H a.hashInput = sections H b.hashInput ↔
      canonicalJson H a.manifest.value = canonicalJson H b.manifest.value ∧
        (∀ f, f ∈ a.tsSources ↔ f ∈ b.tsSources) ∧ ∀ f, f ∈ a.bamlSources ↔ f ∈ b.bamlSources := by
  have hnul : ∀ {fi : List SourceFile}, WellNamed fi → ∀ f ∈ sortByPath (fi.map hashFile), f.NulFree := by
    intro fi h f hf
    obtain ⟨g, hg, rfl⟩ := mem_map.mp (mem_sortByPath.mp hf)
    exact h.nulFree g hg
  rw [← sortByPath_eq_iff hts hts', ← sortByPath_eq_iff hbaml hbaml']
  constructor
  · intro h
    obtain ⟨hm, hfiles⟩ := List.cons.inj h
    obtain ⟨hfi, hs⟩ := fileSections_append_inj hfiles
    exact ⟨(Section.mk.inj hm).2, fileSections_inj (hnul hts) (hnul hts') hfi,
      fileSections_inj (hnul hbaml) (hnul hbaml') hs⟩
  · rintro ⟨hm, hfi, hs⟩
    simp only [sections, hashInput] at hfi hs ⊢
    rw [hm, hfi, hs]

theorem Fits.sections {H : Hashing} {b : SourceBundle} (h : b.Fits H) : ∀ r ∈ sections H b.hashInput, r.Fits := by
  have hfi : ∀ (tag : String) (fi : List SourceFile), (utf8 tag).length < 256 ^ 4 →
      (∀ f ∈ fi, f ∈ b.tsSources ++ b.bamlSources) →
      ∀ r ∈ fileSections tag (sortByPath (fi.map hashFile)), r.Fits := by
    intro tag fi ht hfl r hr
    obtain ⟨g, hg, rfl⟩ := mem_map.mp hr
    obtain ⟨f, hf, rfl⟩ := mem_map.mp (mem_sortByPath.mp hg)
    obtain ⟨hp, hc⟩ := h.files f (hfl f hf)
    refine ⟨ht, ?_⟩
    simp only [HashInputFile.bytes, hashFile, length_append, length_cons]
    omega
  intro r hr
  rcases mem_cons.mp hr with rfl | hr
  · exact ⟨show (utf8 "manifest").length < 256 ^ 4 by decide, h.manifest.trans (by decide)⟩
  · rcases mem_append.mp hr with hr | hr
    · exact hfi "ts" _ (by decide) (fun f hf => mem_append_left _ hf) r hr
    · exact hfi "baml" _ (by decide) (fun f hf => mem_append_right _ hf) r hr

theorem hexEncode_injective : Function.Injective hexEncode := fun _ _ h =>
  flatMap_hexByte_injective (String.ofList_injective h)

/-- Two bundles have one content hash exactly when they have the same files and manifests
that differ at most in the order of their keys. -/
theorem content_hash_eq_iff (H : Hashing) (hsha : Function.Injective H.sha256)
    (htext : Set.InjOn H.compactText {v | v.KeySorted}) (a b : SourceBundle)
    (ha : a.Fits H) (hb : b.Fits H) (hts : WellNamed a.tsSources) (hbaml : WellNamed a.bamlSources)
    (hts' : WellNamed b.tsSources) (hbaml' : WellNamed b.bamlSources) :
    ∃ h h', a.computeHash H = some h ∧ b.computeHash H = some h' ∧
      (h = h' ↔ a.manifest.value.Reorders b.manifest.value ∧
        (∀ f, f ∈ a.tsSources ↔ f ∈ b.tsSources) ∧ ∀ f, f ∈ a.bamlSources ↔ f ∈ b.bamlSources) := by
  have hcomputed : ∀ c : SourceBundle, WellNamed c.tsSources → WellNamed c.bamlSources →
      c.computeHash H = some (finish H ((Repository.sections H c.hashInput).flatMap Section.bytes)) := by
    intro c hfi hs
    have hnul : ∀ {files : List SourceFile}, WellNamed files → ∀ f ∈ files.map hashFile, f.NulFree := by
      intro files hfiles f hf
      obtain ⟨g, hg, rfl⟩ := mem_map.mp hf
      exact hfiles.nulFree g hg
    rw [computeHash, hash, feed_eq H (hnul hfi) (hnul hs)]
    rfl
  refine ⟨_, _, hcomputed a hts hbaml, hcomputed b hts' hbaml', ?_⟩
  have hmanifest : canonicalJson H a.manifest.value = canonicalJson H b.manifest.value ↔
      a.manifest.value.Reorders b.manifest.value := by
    rw [← sortJsonKeys_eq_iff a.manifest.uniqueKeys]
    exact htext.eq_iff (keySorted_sortJsonKeys a.manifest.uniqueKeys)
      (keySorted_sortJsonKeys b.manifest.uniqueKeys)
  rw [← hmanifest, ← sections_eq_iff H hts hbaml hts' hbaml']
  constructor
  · intro h
    have hbytes := hsha (hexEncode_injective (ContentHash.mk.inj h))
    exact flatMap_bytes_inj ha.sections hb.sections hbytes
  · intro h
    rw [h]

/-- A text and a digest that tell everything apart. -/
def transparentHashing : Hashing := ⟨Value.code, id⟩

def plannerBundle : SourceBundle where
  manifest := ⟨.object [("name", .string "p"), ("tools", .array [])],
    .object (by simpa using ⟨.string "p", .array (by simp)⟩) (by decide)⟩
  tsSources := [⟨"src/index.ts", "run"⟩, ⟨"src/plan.ts", ""⟩]
  bamlSources := [⟨"baml_src/main.baml", "class"⟩]

def reorderedBundle : SourceBundle where
  manifest := ⟨.object [("tools", .array []), ("name", .string "p")],
    .object (by simpa using ⟨.array (by simp), .string "p"⟩) (by decide)⟩
  tsSources := [⟨"src/plan.ts", ""⟩, ⟨"src/index.ts", "run"⟩]
  bamlSources := [⟨"baml_src/main.baml", "class"⟩]

theorem reordered_bundle_same_hash : ∃ h, plannerBundle.computeHash transparentHashing = some h ∧
      reorderedBundle.computeHash transparentHashing = some h := by
  obtain ⟨h, h', hp, hr, hiff⟩ := content_hash_eq_iff transparentHashing
    Function.injective_id Json.Value.code_injective.injOn plannerBundle reorderedBundle
    ⟨by decide +kernel, by decide +kernel⟩ ⟨by decide +kernel, by decide +kernel⟩
    ⟨by decide, by decide⟩ ⟨by decide, by decide⟩ ⟨by decide, by decide⟩ ⟨by decide, by decide⟩
  have hs : h = h' := hiff.mpr ⟨.members (.swap _ _ _), by simp [plannerBundle, reorderedBundle, or_comm],
    fun f => Iff.rfl⟩
  exact ⟨h, hp, hs ▸ hr⟩

end SourceBundle

end AgentiumOs.Repository
