import AgentiumOs.Lib.Framing
import AgentiumOs.Lib.JsonOrder
import AgentiumOs.Lib.StableSort
import AgentiumOs.Lib.Text

/-! The canonical hash of an agent's sources. The hasher is fed a section with the
manifest, whose keys are sorted at every depth, then a section for each TypeScript
file and each BAML file in the order of their paths. Every section has the lengths
of its tag and of its data in front, so the sections can be read back from the bytes
fed. A path with a NUL panics. -/

namespace AgentiumOs.Repository

open List Lib Lib.Framing
open Lib.Json (Value)

/-- What the hasher takes from elsewhere: the bytes of the compact text of a value,
and the digest of the bytes it was fed. -/
structure Hashing where
  compactText : Value → List UInt8
  sha256 : List UInt8 → List UInt8

structure ContentHash where
  hex : String
  deriving DecidableEq

structure HashInputFile where
  path : String
  content : String

structure HashInput where
  manifest : Value
  tsFiles : List HashInputFile
  bamlFiles : List HashInputFile

-- a value is nested in lists, so it is sorted together with its items and members
mutual

def sortJsonKeys : Value → Value
  | .null => .null
  | .bool b => .bool b
  | .number n => .number n
  | .string s => .string s
  | .array items => .array (sortItems items)
  | .object members => .object ((sortMembers members).insertionSort fun m n => m.1 ≤ n.1)

def sortItems : List Value → List Value
  | [] => []
  | v :: items => sortJsonKeys v :: sortItems items

def sortMembers : List (String × Value) → List (String × Value)
  | [] => []
  | (key, v) :: members => (key, sortJsonKeys v) :: sortMembers members

end

def canonicalJson (H : Hashing) (value : Value) : List UInt8 := H.compactText (sortJsonKeys value)

def hexEncode (bytes : List UInt8) : String := String.ofList (bytes.flatMap hexByte)

/-- The bytes of a file: its path, a zero and its content. -/
def HashInputFile.bytes (file : HashInputFile) : List UInt8 := utf8 file.path ++ 0 :: utf8 file.content

def HashInputFile.NulFree (file : HashInputFile) : Prop := Char.ofNat 0 ∉ file.path.toList

instance (file : HashInputFile) : Decidable file.NulFree := by
  unfold HashInputFile.NulFree
  infer_instance

/-- `none` is the failed assertion. -/
def fileData (file : HashInputFile) : Option (List UInt8) :=
  if file.NulFree then some file.bytes else none

abbrev HasherState := List UInt8

def feedSection (state : HasherState) (tag : String) (data : List UInt8) : HasherState :=
  state ++ Section.bytes ⟨utf8 tag, data⟩

def sortByPath (files : List HashInputFile) : List HashInputFile :=
  files.insertionSort fun f g => f.path ≤ g.path

def feedFiles (tag : String) : HasherState → List HashInputFile → Option HasherState
  | state, [] => some state
  | state, file :: files => do
      let data ← fileData file
      feedFiles tag (feedSection state tag data) files

def feed (H : Hashing) (input : HashInput) : Option HasherState := do
  let state := feedSection [] "manifest" (canonicalJson H input.manifest)
  let state ← feedFiles "ts" state (sortByPath input.tsFiles)
  feedFiles "baml" state (sortByPath input.bamlFiles)

def finish (H : Hashing) (state : HasherState) : ContentHash := ⟨hexEncode (H.sha256 state)⟩

def hash (H : Hashing) (input : HashInput) : Option ContentHash := (feed H input).map (finish H)

theorem sortItems_eq_map (i : List Value) : sortItems i = i.map sortJsonKeys := by
  induction i with
  | nil => simp [sortItems]
  | cons v i ih => rw [sortItems, ih, map_cons]

theorem sortMembers_eq_map (me : List (String × Value)) :
    sortMembers me = me.map fun m => (m.1, sortJsonKeys m.2) := by
  induction me with
  | nil => simp [sortMembers]
  | cons m me ih => rw [sortMembers, ih, map_cons]

theorem keys_sortMembers (m : List (String × Value)) : (sortMembers m).map Prod.fst = m.map Prod.fst := by
  rw [sortMembers_eq_map, map_map]
  rfl

theorem reorders_sortJsonKeys (v : Value) : v.Reorders (sortJsonKeys v) := by
  induction v using Value.induction with
  | null | bool b | number n | string s => exact .refl _
  | array items ih =>
    rw [sortJsonKeys, sortItems_eq_map]
    exact Value.reorders_array_map sortJsonKeys ih []
  | object m ih =>
    refine .trans ?_ (.members (perm_insertionSort _ _).symm)
    rw [sortMembers_eq_map]
    exact Value.reorders_object_map sortJsonKeys ih []

variable {v w : Value}

theorem keySorted_sortJsonKeys (h : v.UniqueKeys) : (sortJsonKeys v).KeySorted := by
  induction v using Value.induction with
  | null => exact .null
  | bool b => exact .bool b
  | number n => exact .number n
  | string s => exact .string s
  | array items ih =>
    cases h with
    | array hi =>
      rw [sortJsonKeys, sortItems_eq_map]
      refine .array fun w hw => ?_
      obtain ⟨v, hv, rfl⟩ := mem_map.mp hw
      exact ih v hv (hi v hv)
  | object members ih =>
    cases h with
    | object hme hk =>
      refine .object (fun n hn => ?_) (StableSort.pairwise_lt_insertionSort (by rwa [keys_sortMembers]))
      rw [(perm_insertionSort _ _).mem_iff, sortMembers_eq_map] at hn
      obtain ⟨m, hm, rfl⟩ := mem_map.mp hn
      exact ih m hm (hme m hm)

theorem sortJsonKeys_eq_of_reorders (h : v.Reorders w) (hv : v.UniqueKeys) : sortJsonKeys v = sortJsonKeys w := by
  induction h with
  | refl v => rfl
  | trans hf _ ih ih' => exact (ih hv).trans (ih' (hf.uniqueKeys hv))
  | members hp =>
    cases hv with
    | object _ hk =>
      rw [sortJsonKeys]
      congr 1
      have hk' := (hp.map Prod.fst).nodup_iff.mp hk
      rw [← keys_sortMembers] at hk hk'
      refine (StableSort.insertionSort_eq_iff_perm hk hk').mpr ?_
      rw [sortMembers_eq_map, sortMembers_eq_map]
      exact hp.map _
  | item pre p _ ih =>
    cases hv with
    | array hi =>
      simp [sortJsonKeys, sortItems_eq_map, ih (hi _ (by simp))]
  | member pre p key _ ih =>
    cases hv with
    | object hm _ =>
      simp [sortJsonKeys, sortMembers_eq_map, ih (hm (key, _) (by simp))]

theorem sortJsonKeys_eq_iff (hv : v.UniqueKeys) : sortJsonKeys v = sortJsonKeys w ↔ v.Reorders w := by
  constructor
  · intro h
    exact (reorders_sortJsonKeys v).trans (h ▸ (reorders_sortJsonKeys w).symm)
  · intro h
    exact sortJsonKeys_eq_of_reorders h hv

/-- The sections of the files, in the order they are fed. -/
def fileSections (tag : String) (files : List HashInputFile) : List Section :=
  files.map fun file => ⟨utf8 tag, file.bytes⟩

variable {files files' : List HashInputFile}

theorem feedFiles_eq (tag : String) (h : ∀ f ∈ files, f.NulFree) (s : HasherState) :
    feedFiles tag s files = some (s ++ (fileSections tag files).flatMap Section.bytes) := by
  induction files generalizing s with
  | nil => simp [feedFiles, fileSections]
  | cons file files ih =>
    obtain ⟨hf, hfi⟩ := forall_mem_cons.mp h
    rw [feedFiles, fileData, if_pos hf]
    simp [ih hfi, feedSection, fileSections]

/-- The sections of an input, in the order they are fed. -/
def sections (H : Hashing) (input : HashInput) : List Section :=
  ⟨utf8 "manifest", canonicalJson H input.manifest⟩ ::
    (fileSections "ts" (sortByPath input.tsFiles) ++ fileSections "baml" (sortByPath input.bamlFiles))

variable {f g : HashInputFile}

theorem mem_sortByPath : f ∈ sortByPath files ↔ f ∈ files :=
  (perm_insertionSort _ files).mem_iff

theorem feed_eq (H : Hashing) (hts : ∀ f ∈ i.tsFiles, f.NulFree) (hb : ∀ f ∈ i.bamlFiles, f.NulFree) :
    feed H i = some ((sections H i).flatMap Section.bytes) := by
  rw [feed]
  simp [feedFiles_eq "ts" (fun f hf => hts f (mem_sortByPath.mp hf)),
    feedFiles_eq "baml" (fun f hf => hb f (mem_sortByPath.mp hf)), feedSection, sections]

/-- A file without a NUL in its path can be read back from its bytes. -/
theorem bytes_inj (hf : f.NulFree) (hg : g.NulFree) (h : f.bytes = g.bytes) : f = g := by
  obtain ⟨hp, hc⟩ := Text.lead_unique (zero_notMem_utf8 hf) (zero_notMem_utf8 hg) h
  rw [HashInputFile.mk.injEq]
  exact ⟨utf8_injective hp, utf8_injective hc⟩

theorem fileSections_inj (hf : ∀ f ∈ files, f.NulFree) (hf' : ∀ f ∈ files', f.NulFree)
    (h : fileSections tag files = fileSections tag files') : files = files' := by
  induction files generalizing files' with
  | nil => exact (map_eq_nil_iff.mp h.symm).symm
  | cons f files ih =>
    cases files' with
    | nil => cases h
    | cons g files' =>
      obtain ⟨hfi, hr⟩ := List.cons.inj h
      rw [bytes_inj (hf f mem_cons_self) (hf' g mem_cons_self) (Section.mk.inj hfi).2,
        ih (fun x hx => hf x (mem_cons_of_mem f hx)) (fun x hx => hf' x (mem_cons_of_mem g hx)) hr]

end AgentiumOs.Repository
