import C64Iec.Server.DirectoryMap
import C64Iec.System.Names

set_option autoImplicit false

/-! # A directory device under the names of the client

The names a directory device is asked for are those `create_tftp_filename` produces. A sequence
of whole writes makes the directory the map of what has been written, as long as the directory
can keep every name (`isMap_iff`).
-/

namespace C64Iec

open Lib Server Client

/-! ## The names -/

/-- A name `create_tftp_filename` produces, without the device prefix. -/
def Producible (name : Bytes) : Prop :=
  ∃ collected : Bytes, (∀ c ∈ collected, c ≠ 0) ∧ name = encode (normalForm collected)

theorem not_space_suffix_normalForm (name : Bytes) : ¬[32] <:+ normalForm name := by
  rintro ⟨pre, hpre⟩
  have hne : normalForm name ≠ [] := by
    rw [← hpre]
    simp
  have hlast : (normalForm name).getLast hne = 32 := by
    simp only [← hpre]
    simp
  have h := List.rdropWhile_last_not (fun c : Byte => c = 32)
    ((name.take C64_FILE_LIMIT).filter (· ≠ 0xa0)) hne
  exact h (decide_eq_true hlast)

/-- What the device makes of such a name is a name for a header. -/
theorem c64Name_decode {name : Bytes} (h : Producible name) : C64Name (decode name) := by
  obtain ⟨collected, hnul, rfl⟩ := h
  rw [decode, unescape_encode]
  have hsub : (stripLineStarts atDigitColon isLineFeed (normalForm collected)).Sublist
      (normalForm collected) := stripLineStartsAux_sublist atDigitColon_suffix _ _ _
  refine ⟨Nat.le_trans hsub.length_le (normalForm_length_le collected), fun c hc => ?_,
    fun hspace => ?_⟩
  · have hmem : c ∈ normalForm collected := hsub.subset hc
    refine ⟨hnul c (mem_of_mem_normalForm hmem), ?_⟩
    have hfilter := (List.rdropWhile_prefix _ _).subset hmem
    simpa using (List.mem_filter.mp hfilter).2
  · exact not_space_suffix_normalForm collected
      (suffix_of_stripLineStartsAux rfl atDigitColon_suffix _ _ _ hspace)

/-! ## The device as a map -/

namespace Directories

/-- What is read from the device is what the map `m` has: under each name the client can ask for
that is not the listing's, `open` finds the data or nothing; and the directory has one PC64 file
for each name in the map, and no other. -/
structure Holds (m : Bytes → Option Bytes) (d : DeviceDir) : Prop where
  absent : ∀ name, Producible name → (decode name).head? ≠ some 36 → m (decode name) = none →
    (d.openFile name .read).1 = .ok false
  present : ∀ name, Producible name → (decode name).head? ≠ some 36 → ∀ data,
    m (decode name) = some data →
      d.openFile name .read = (.ok true, { d with file := .reading data })
  oneFile : ∀ c64, (m c64).isSome = true → ∃! nm, d.dir.Named c64 nm
  noOther : ∀ c64 nm, d.dir.Named c64 nm → (m c64).isSome = true

/-- The device behaves as a map on the operations: after each of them it holds what has been
written so far. -/
def IsMap (d : DeviceDir) (ops : List (Bytes × List Bytes)) : Prop :=
  ∀ done, done <+: ops → ∀ d', d.writeFiles done = .ok d' → Holds (DeviceDir.contentsAfter done) d'

variable {d d' : DeviceDir} {m : Bytes → Option Bytes} {ops : List (Bytes × List Bytes)}

/-- A directory that mirrors a map holds it. -/
theorem holds_of_mirrors (h : d.dir.Mirrors m) : Holds m d := by
  refine ⟨?_, ?_, ?_, ?_⟩
  · intro name _ hlisting hm
    have hread := DeviceDir.openRead_of_mirrors h hlisting
    simp only [hm] at hread
    simp only [DeviceDir.openFile, hread]
  · intro name _ hlisting data hm
    have hread := DeviceDir.openRead_of_mirrors h hlisting
    simp only [hm] at hread
    simp only [DeviceDir.openFile, hread]
  · intro c64 hm
    obtain ⟨w, hw⟩ := Option.isSome_iff_exists.mp hm
    obtain ⟨nm, hn⟩ := h.complete c64 w hw
    exact ⟨nm, hn, fun nm' hn' => h.unique c64 nm' nm hn' hn⟩
  · intro c64 nm hn
    obtain ⟨w, -, -, hw⟩ := h.content hn
    rw [hw]
    rfl

/-- A name that cannot be kept is not found again. -/
theorem not_holds (hsound : d.dir.Sound) {name : Bytes} (hname : Producible name)
    (hlisting : (decode name).head? ≠ some 36) (hm : (m (decode name)).isSome = true)
    (hkeep : ¬Keepable (decode name)) : ¬Holds m d := by
  intro h
  obtain ⟨data, hdata⟩ := Option.isSome_iff_exists.mp hm
  have hopen := h.present name hname hlisting data hdata
  rcases hsound.findLocal_cases (decode name) with ⟨nm, -, hn⟩ | ⟨hfind, -⟩
  · exact hkeep (hsound.keepable hn)
  · have hread : d.openRead (decode name) = .ok (false, d) := by
      rw [DeviceDir.openRead, if_neg hlisting]
      simp only [hfind]
    simp only [DeviceDir.openFile, hread] at hopen
    exact absurd (congrArg Prod.fst hopen) (by simp)

theorem not_isMap (hempty : DeviceDir.NoPc64 d.dir) (hnames : ∀ op ∈ ops, Producible op.1)
    (hlisting : ∀ op ∈ ops, (decode op.1).head? ≠ some 36) (hrun : d.writeFiles ops = .ok d')
    {op : Bytes × List Bytes} (hop : op ∈ ops) (hkeep : ¬Keepable (decode op.1)) :
    ¬IsMap d ops := fun h =>
  not_holds
    (DeviceDir.sound_writeFiles hempty (fun op hop => c64Name_decode (hnames op hop)) hrun)
    (hnames op hop) (hlisting op hop) (DeviceDir.contentsAfter_isSome hop) hkeep
    (h ops List.prefix_rfl d' hrun)

/-- **A directory device is a map** from C64 names to what has been written under them exactly
when it can keep all the names: each has something other than dots in its local name, and no
space before a line feed. -/
theorem isMap_iff (hempty : DeviceDir.NoPc64 d.dir) (hnames : ∀ op ∈ ops, Producible op.1)
    (hlisting : ∀ op ∈ ops, (decode op.1).head? ≠ some 36) (hrun : d.writeFiles ops = .ok d') :
    IsMap d ops ↔ ∀ op ∈ ops, Keepable (decode op.1) := by
  constructor
  · intro h op hop
    by_contra hkeep
    exact not_isMap hempty hnames hlisting hrun hop hkeep h
  · intro hkeep done hdone d₁ hrun₁
    exact holds_of_mirrors (DeviceDir.mirrors_writeFiles hempty
      (fun op hop => c64Name_decode (hnames op (hdone.subset hop)))
      (fun op hop => hkeep op (hdone.subset hop)) hrun₁)

/-- The name `A` is written twice, `A.B` once. -/
theorem isMap_iff_rewritten :
    IsMap .empty [(ascii "A", [[1], [2]]), (ascii "A.B", [[3]]), (ascii "A", [])] := by
  have hrun : DeviceDir.empty.writeFiles [(ascii "A", [[1], [2]]), (ascii "A.B", [[3]]),
      (ascii "A", [])] = .ok _ := rfl
  refine (isMap_iff (fun nm e hmem => by cases hmem) ?_ (by decide) hrun).mpr ?_
  · intro op hop
    simp only [List.mem_cons, List.not_mem_nil, or_false] at hop
    rcases hop with rfl | rfl | rfl
    · exact ⟨ascii "A", by decide, by decide⟩
    · exact ⟨ascii "A.B", by decide, by decide⟩
    · exact ⟨ascii "A", by decide, by decide⟩
  · have hkeepable : ∀ c64 : Bytes, (∃ c ∈ strippedFilename c64, c ≠ 46) → 32 ∉ c64 →
        Keepable c64 := fun c64 hlocal hspace =>
      ⟨hlocal, fun hin => hspace (hin.subset List.mem_cons_self)⟩
    intro op hop
    simp only [List.mem_cons, List.not_mem_nil, or_false] at hop
    rcases hop with rfl | rfl | rfl <;> exact hkeepable _ (by decide) (by decide)

/-- Of the name `!` nothing is left as a local name: the file `.p00` has no extension. -/
theorem not_isMap_exclamation :
    ∃ d', DeviceDir.empty.writeFiles [(ascii "%21", [[1]])] = .ok d' ∧
      (d'.openFile (ascii "%21") .read).1 = .ok false ∧
      ¬IsMap .empty [(ascii "%21", [[1]])] := by
  have hrun : DeviceDir.empty.writeFiles [(ascii "%21", [[1]])] = .ok _ := rfl
  refine ⟨_, hrun, by decide, not_isMap (fun nm e hmem => by cases hmem) ?_ (by decide) hrun
    List.mem_cons_self ?_⟩
  · intro op hop
    obtain rfl := List.mem_singleton.mp hop
    exact ⟨ascii "!", by decide, by decide⟩
  · rintro ⟨⟨c, hc, -⟩, -⟩
    have hnil : strippedFilename (decode (ascii "%21")) = [] := by decide
    rw [hnil] at hc
    cases hc

end Directories

end C64Iec
