import C64Iec.Server.Directory

set_option autoImplicit false

/-! # A directory as a map from C64 names to data

`Dir.Mirrors m` says that the PC64 files of a directory hold the map `m`, one file for each name.
Creating and writing a file changes the map at its name (`Mirrors.put`), and what is read under a
name is what the map has there (`Mirrors.findLocal_some`). That rests on two properties of the
name (`Keepable`): its local name gives an extension, and the header field gives the name back.
-/

namespace C64Iec.Server

open Lib

/-! ## Names in headers -/

/-- What names a C64 program can ask for: no longer than the header field, and without the bytes
that pad it. -/
structure C64Name (c64 : Bytes) : Prop where
  length : c64.length ≤ PC64_FILENAME_SIZE
  noPadding : ∀ c ∈ c64, c ≠ 0 ∧ c ≠ 0xa0
  noSpaceLast : ¬[32] <:+ c64

/-- A name a directory can keep: its local name has something other than dots, and no space
stands before a line feed. -/
def Keepable (c64 : Bytes) : Prop :=
  (∃ c ∈ strippedFilename c64, c ≠ 46) ∧ ¬[32, 10] <:+: c64

theorem pc64Header_length {c64 : Bytes} (h : c64.length ≤ PC64_FILENAME_SIZE) :
    (pc64Header c64).length = PC64_HEADER_SIZE := by
  have h16 : PC64_FILENAME_SIZE = 16 := rfl
  have h7 : (ascii "C64File").length = 7 := rfl
  simp only [pc64Header, List.length_append, List.length_replicate, List.length_cons,
    List.length_nil, h7]
  simp only [PC64_HEADER_SIZE]
  omega

theorem drop_pc64Header {c64 : Bytes} (h : c64.length ≤ PC64_FILENAME_SIZE) (w : Bytes) :
    (pc64Header c64 ++ w).drop PC64_HEADER_SIZE = w :=
  List.drop_left' (pc64Header_length h)

/-- The padding that `stripPadding` removes. -/
def isPadding (c : Byte) : Bool := c == 32 || c == 0xa0 || c == 0

theorem isPadding_ne_lineFeed (c : Byte) (h : isPadding c = true) : isLineFeed c = false := by
  by_contra hlf
  obtain rfl : c = 10 := by simpa [isLineFeed] using hlf
  exact absurd h (by decide)

/-- The name a header gives back. -/
theorem pc64C64Filename_header {c64 : Bytes} (h : c64.length ≤ PC64_FILENAME_SIZE) (w : Bytes) :
    pc64C64Filename (pc64Header c64 ++ w) = .ok (stripPadding c64) := by
  have hlen := pc64Header_length h
  have hne : pc64Header c64 ++ w ≠ [] := by
    intro hnil
    have := congrArg List.length hnil
    rw [List.length_append, hlen] at this
    exact absurd this (by simp [PC64_HEADER_SIZE])
  have htake : (pc64Header c64 ++ w).take PC64_HEADER_SIZE = pc64Header c64 := List.take_left' hlen
  have hfield : ((pc64Header c64).drop 8).take PC64_FILENAME_SIZE
      = c64 ++ List.replicate (PC64_FILENAME_SIZE - c64.length) 0 := by
    have hsplit : pc64Header c64 = (ascii "C64File" ++ [0])
        ++ ((c64 ++ List.replicate (PC64_FILENAME_SIZE - c64.length) 0) ++ [0, 0]) := by
      simp [pc64Header]
    have h8 : (ascii "C64File" ++ [0]).length = 8 := rfl
    rw [hsplit, List.drop_left' h8]
    refine List.take_left' ?_
    rw [List.length_append, List.length_replicate]
    omega
  have hstrip : stripPadding (c64 ++ List.replicate (PC64_FILENAME_SIZE - c64.length) 0)
      = stripPadding c64 := by
    refine stripLineEnds_append_pads c64 ?_
    intro c hc
    rw [List.eq_of_mem_replicate hc]
    rfl
  rw [pc64C64Filename, if_neg hne, htake]
  simp only [hlen, hfield, hstrip]
  rfl

/-- A name is given back unless a space stands before a line feed. -/
theorem stripPadding_eq_iff {c64 : Bytes} (h : C64Name c64) :
    stripPadding c64 = c64 ↔ ¬[32, 10] <:+: c64 := by
  have hiff := stripLineEnds_eq_self_iff isPadding_ne_lineFeed c64
  have hpad : PadAtLineEnd isPadding isLineFeed c64 ↔ [32, 10] <:+: c64 := by
    constructor
    · rintro ⟨pre, c, rest, rfl, hc, hend⟩
      have hspace : c = 32 := by
        have hnot := h.noPadding c (by simp)
        simpa [isPadding, hnot.1, hnot.2] using hc
      subst hspace
      cases rest with
      | nil => exact absurd ⟨pre, rfl⟩ h.noSpaceLast
      | cons x rest =>
          obtain rfl : x = 10 := by simpa [atLineEnd, isLineFeed] using hend
          exact ⟨pre, rest, by simp⟩
    · rintro ⟨pre, rest, rfl⟩
      exact ⟨pre, 32, 10 :: rest, by simp, rfl, rfl⟩
  rw [← hpad]
  exact hiff

/-- What is given back is given back again. -/
theorem stripPadding_not_infix (s : Bytes) : ¬[32, 10] <:+: stripPadding s := by
  rintro ⟨pre, rest, heq⟩
  refine not_padAtLineEnd_stripLineEnds isPadding_ne_lineFeed s ⟨pre, 32, 10 :: rest, ?_, rfl, rfl⟩
  have heq' : stripLineEnds isPadding isLineFeed s = pre ++ [32, 10] ++ rest := heq.symm
  simpa using heq'

/-- Padding does not show in the local name. -/
theorem strippedFilename_stripPadding (s : Bytes) :
    strippedFilename (stripPadding s) = strippedFilename s := by
  have hkeep : ∀ c, isPadding c = true → (isLocalChar ∘ downcase) c = false := by
    intro c hc
    have hcases : c = 32 ∨ c = 0xa0 ∨ c = 0 := by
      simpa [isPadding, or_assoc] using hc
    rcases hcases with rfl | rfl | rfl <;> decide
  rw [strippedFilename, strippedFilename, List.filter_map, List.filter_map]
  exact congrArg (List.map downcase) (filter_stripLineEnds hkeep s)

/-! ## Extensions -/

theorem counterDigit (n : Nat) (hn : n < 10) : isDigit (UInt8.ofNat (48 + n)) = true ∧
    UInt8.ofNat (48 + n) ≠ 46 := by
  revert n
  decide

/-- The extension of a local name is `.pNN`, unless nothing but dots comes before it. -/
theorem isPc64Ext_pc64File {k : Nat} (hk : k < 100) (filename : Bytes) :
    isPc64Ext (extname (pc64File filename k)) = true ↔ ∃ c ∈ filename, c ≠ 46 := by
  obtain ⟨htens, htensNe⟩ := counterDigit (k / 10) (by omega)
  obtain ⟨hones, honesNe⟩ := counterDigit (k % 10) (by omega)
  rw [pc64File]
  generalize UInt8.ofNat (48 + k / 10) = a at htens htensNe ⊢
  generalize UInt8.ofNat (48 + k % 10) = b at hones honesNe ⊢
  have hsplit : filename ++ ascii ".p" ++ [a, b] = filename ++ [46, 112, a, b] := by
    rw [List.append_assoc]
    rfl
  rw [hsplit, extname, List.dropWhile_append]
  by_cases hdots : ∃ c ∈ filename, c ≠ 46
  -- the dots at the front are no part of the search for the extension
  · have hne : ¬(filename.dropWhile (· = 46)).isEmpty = true := by
      rw [List.isEmpty_iff, List.dropWhile_eq_nil_iff]
      obtain ⟨c, hc, hc46⟩ := hdots
      exact fun hall => hc46 (by simpa using hall c hc)
    rw [if_neg hne]
    have hcontains : (filename.dropWhile (· = 46) ++ [46, 112, a, b]).contains 46 = true := by
      simp
    have htake : (filename.dropWhile (· = 46) ++ [46, 112, a, b]).reverse.takeWhile (· ≠ 46)
        = [b, a, 112] := by
      simp [htensNe, honesNe]
    simp only [hcontains, htake, if_true]
    simp [isPc64Ext, htens, hones, atLineEnd, hdots]
  · have hnil : (filename.dropWhile (· = 46)).isEmpty = true := by
      rw [List.isEmpty_iff, List.dropWhile_eq_nil_iff]
      intro c hc
      by_contra hc46
      exact hdots ⟨c, hc, by simpa using hc46⟩
    rw [if_pos hnil]
    have hcontains : ¬([46, 112, a, b].dropWhile (· = (46 : Byte))).contains 46 = true := by
      simp [Ne.symm htensNe, Ne.symm honesNe]
    simp only [hcontains, hdots, iff_false]
    exact Bool.false_ne_true

/-! ## Finding a file -/

/-- The listing has the PC64 file `nm`, whose C64 name is `c64`. -/
def NamedIn (l : List (Bytes × Entry)) (c64 nm : Bytes) : Prop :=
  ∃ content, (nm, Entry.file content) ∈ l ∧ isPc64 nm (.file content) = true ∧
    pc64C64Filename content = .ok c64

theorem namedIn_cons_of_not {nm nm' c64 : Bytes} {e : Entry} {l : List (Bytes × Entry)}
    (h : ∀ content, e = .file content → isPc64 nm (.file content) = true →
      pc64C64Filename content ≠ .ok c64) :
    NamedIn ((nm, e) :: l) c64 nm' ↔ NamedIn l c64 nm' := by
  constructor
  · rintro ⟨content, hmem, hpc, hname⟩
    rcases List.mem_cons.mp hmem with heq | hmem
    · obtain ⟨rfl, rfl⟩ := Prod.mk.inj heq
      exact absurd hname (h content rfl hpc)
    · exact ⟨content, hmem, hpc, hname⟩
  · rintro ⟨content, hmem, hpc, hname⟩
    exact ⟨content, List.mem_cons_of_mem _ hmem, hpc, hname⟩

/-- **`find_local`**, on a listing in which every PC64 file has a C64 name, finds a file with the
name it looks for if there is one. -/
theorem findLocal_cases (c64 : Bytes) {l : List (Bytes × Entry)}
    (h : ∀ nm content, (nm, .file content) ∈ l → isPc64 nm (.file content) = true →
      ∃ c, pc64C64Filename content = .ok c) :
    (∃ nm, findLocal c64 l = .ok (some nm) ∧ NamedIn l c64 nm) ∨
      findLocal c64 l = .ok none ∧ ∀ nm, ¬NamedIn l c64 nm := by
  induction l with
  | nil =>
      refine Or.inr ⟨rfl, ?_⟩
      rintro nm ⟨content, hmem, -⟩
      cases hmem
  | cons entry l ih =>
      obtain ⟨nm, e⟩ := entry
      have hrest := ih fun nm content hmem => h nm content (List.mem_cons_of_mem _ hmem)
      -- a child that is passed over
      have hskip : findLocal c64 ((nm, e) :: l) = findLocal c64 l →
          (∀ content, e = .file content → isPc64 nm (.file content) = true →
            pc64C64Filename content ≠ .ok c64) →
          (∃ nm', findLocal c64 ((nm, e) :: l) = .ok (some nm') ∧
              NamedIn ((nm, e) :: l) c64 nm') ∨
            findLocal c64 ((nm, e) :: l) = .ok none ∧ ∀ nm', ¬NamedIn ((nm, e) :: l) c64 nm' := by
        intro hfind hne
        simp only [hfind, namedIn_cons_of_not hne]
        exact hrest
      cases e with
      | other => exact hskip rfl fun _ he => by cases he
      | file content =>
          by_cases hpc : isPc64 nm (.file content) = true
          · obtain ⟨c, hc⟩ := h nm content List.mem_cons_self hpc
            by_cases hcc : c = c64
            · subst hcc
              exact Or.inl ⟨nm, by simp [findLocal, hpc, hc], content, List.mem_cons_self, hpc, hc⟩
            · refine hskip (by simp [findLocal, hpc, hc, hcc]) ?_
              intro content' he _ hname
              obtain rfl := Entry.file.inj he
              exact hcc (Except.ok.inj (hc.symm.trans hname))
          · refine hskip (by simp [findLocal, hpc]) ?_
            intro content' he hpc'
            obtain rfl := Entry.file.inj he
            exact absurd hpc' hpc

namespace Dir

variable {d d' : Dir} {c64 c64' nm nm' name w : Bytes}

/-- The directory has the PC64 file `nm`, whose C64 name is `c64`. -/
abbrev Named (d : Dir) (c64 nm : Bytes) : Prop := NamedIn d.children c64 nm

theorem Named.c64_eq (h : d.Named c64 nm) (h' : d.Named c64' nm) : c64 = c64' := by
  obtain ⟨content, hmem, -, hname⟩ := h
  obtain ⟨content', hmem', -, hname'⟩ := h'
  obtain rfl := Entry.file.inj (eq_of_mem hmem hmem')
  exact Except.ok.inj (hname.symm.trans hname')

/-- The PC64 files have been written by this device: each has a header, under a name that gives
it an extension. -/
def Sound (d : Dir) : Prop :=
  ∀ nm content, (nm, .file content) ∈ d.children → isPc64 nm (.file content) = true →
    ∃ c64 w, content = pc64Header c64 ++ w ∧ C64Name c64 ∧ ∃ c ∈ strippedFilename c64, c ≠ 46

/-- The C64 name of a file the device has written is one that can be kept. -/
theorem Sound.keepable (h : d.Sound) (hn : d.Named c64 nm) : Keepable c64 := by
  obtain ⟨content, hmem, hpc, hname⟩ := hn
  obtain ⟨c, w, rfl, hc, hlocal⟩ := h nm content hmem hpc
  rw [pc64C64Filename_header hc.length] at hname
  obtain rfl := Except.ok.inj hname
  exact ⟨by rw [strippedFilename_stripPadding]; exact hlocal, stripPadding_not_infix c⟩

theorem Sound.findLocal_cases (h : d.Sound) (c64 : Bytes) :
    (∃ nm, findLocal c64 d.children = .ok (some nm) ∧ d.Named c64 nm) ∨
      findLocal c64 d.children = .ok none ∧ ∀ nm, ¬d.Named c64 nm := by
  refine Server.findLocal_cases c64 fun nm content hmem hpc => ?_
  obtain ⟨c, w, rfl, hc, -⟩ := h nm content hmem hpc
  exact ⟨_, pc64C64Filename_header hc.length w⟩

/-! ## The map -/

/-- The PC64 files of the directory hold the map `m`, one file for each name. -/
structure Mirrors (m : Bytes → Option Bytes) (d : Dir) : Prop where
  sound : ∀ nm content, (nm, .file content) ∈ d.children → isPc64 nm (.file content) = true →
    ∃ c64 w, content = pc64Header c64 ++ w ∧ C64Name c64 ∧ Keepable c64 ∧ m c64 = some w
  complete : ∀ c64 w, m c64 = some w → ∃ nm, d.Named c64 nm
  unique : ∀ c64 nm nm', d.Named c64 nm → d.Named c64 nm' → nm = nm'

variable {m : Bytes → Option Bytes}

theorem Mirrors.toSound (h : Mirrors m d) : d.Sound := by
  intro nm content hmem hpc
  obtain ⟨c64, w, hcontent, hc, hkeep, -⟩ := h.sound nm content hmem hpc
  exact ⟨c64, w, hcontent, hc, hkeep.1⟩

/-- A file with this name holds what the map has there. -/
theorem Mirrors.content (h : Mirrors m d) (hn : d.Named c64 nm) :
    ∃ w, (nm, .file (pc64Header c64 ++ w)) ∈ d.children ∧ C64Name c64 ∧ m c64 = some w := by
  obtain ⟨content, hmem, hpc, hname⟩ := hn
  obtain ⟨c, w, rfl, hc, hkeep, hw⟩ := h.sound nm content hmem hpc
  rw [pc64C64Filename_header hc.length, (stripPadding_eq_iff hc).mpr hkeep.2] at hname
  obtain rfl := Except.ok.inj hname
  exact ⟨w, hmem, hc, hw⟩

/-- A file with a header for a name that can be kept has that name. -/
theorem named_of_mem (hc : C64Name c64) (hkeep : Keepable c64)
    (hext : isPc64Ext (extname name) = true)
    (hmem : (name, .file (pc64Header c64 ++ w)) ∈ d.children) : d.Named c64 name := by
  refine ⟨_, hmem, ?_, ?_⟩
  · have hid : ((pc64Header c64 ++ w).take PC64_HEADER_SIZE).take PC64_ID_SIZE
        = ascii "C64File" := by
      rw [List.take_left' (pc64Header_length hc.length)]
      simp only [pc64Header, List.append_assoc]
      exact List.take_left' rfl
    have hne : pc64Header c64 ++ w ≠ [] := by simp [pc64Header]
    simp only [isPc64, hext, hid, hne, ne_eq, not_false_eq_true, decide_true, Bool.true_and,
      beq_self_eq_true]
  · rw [pc64C64Filename_header hc.length, (stripPadding_eq_iff hc).mpr hkeep.2]

/-- **One file put in the place of all that had its C64 name.** -/
theorem Mirrors.put (h : Mirrors m d) (hc : C64Name c64) (hkeep : Keepable c64)
    (hext : isPc64Ext (extname name) = true)
    (hmem : ∀ nm e, (nm, e) ∈ d'.children ↔ nm = name ∧ e = .file (pc64Header c64 ++ w) ∨
      nm ≠ name ∧ ¬d.Named c64 nm ∧ (nm, e) ∈ d.children)
    (hfree : ∀ e, (name, e) ∈ d.children → d.Named c64 name) :
    Mirrors (Function.update m c64 (some w)) d' := by
  have hnamed : d'.Named c64 name := named_of_mem hc hkeep hext ((hmem _ _).mpr (Or.inl ⟨rfl, rfl⟩))
  -- the other files are those of before
  have hother : ∀ {c nm}, d'.Named c nm → nm ≠ name → ¬d.Named c64 nm ∧ d.Named c nm := by
    rintro c nm ⟨content, hin, hpc, hname⟩ hne
    rcases (hmem _ _).mp hin with ⟨rfl, -⟩ | ⟨-, hnot, hin'⟩
    · exact absurd rfl hne
    · exact ⟨hnot, content, hin', hpc, hname⟩
  refine ⟨?_, ?_, ?_⟩
  · intro nm content hin hpc
    rcases (hmem _ _).mp hin with ⟨-, he⟩ | ⟨-, hnot, hin'⟩
    · obtain rfl := Entry.file.inj he
      exact ⟨c64, w, rfl, hc, hkeep, Function.update_self ..⟩
    · obtain ⟨c, w', rfl, hc', hkeep', hw'⟩ := h.sound nm content hin' hpc
      refine ⟨c, w', rfl, hc', hkeep', ?_⟩
      have hne : c ≠ c64 := by
        rintro rfl
        refine hnot ⟨_, hin', hpc, ?_⟩
        rw [pc64C64Filename_header hc'.length, (stripPadding_eq_iff hc').mpr hkeep'.2]
      rw [Function.update_of_ne hne, hw']
  · intro c w' hw'
    by_cases hcc : c = c64
    · subst hcc
      exact ⟨name, hnamed⟩
    · rw [Function.update_of_ne hcc] at hw'
      obtain ⟨nm, content, hin, hpc, hname⟩ := h.complete c w' hw'
      have hnot : ¬d.Named c64 nm := fun hn =>
        hcc (Named.c64_eq ⟨content, hin, hpc, hname⟩ hn)
      have hne : nm ≠ name := by
        rintro rfl
        exact hnot (hfree _ hin)
      exact ⟨nm, content, (hmem _ _).mpr (Or.inr ⟨hne, hnot, hin⟩), hpc, hname⟩
  · intro c nm nm' hn hn'
    by_cases hnm : nm = name <;> by_cases hnm' : nm' = name
    · rw [hnm, hnm']
    · subst hnm
      obtain ⟨hnot, hn'⟩ := hother hn' hnm'
      exact absurd (hn.c64_eq hnamed ▸ hn') hnot
    · subst hnm'
      obtain ⟨hnot, hn⟩ := hother hn hnm
      exact absurd (hn'.c64_eq hnamed ▸ hn) hnot
    · exact h.unique c nm nm' (hother hn hnm).2 (hother hn' hnm').2

/-- A file put in the place of others leaves the directory sound, whatever its name. -/
theorem Sound.put (h : d.Sound) (hc : C64Name c64)
    (hext : isPc64Ext (extname name) = true → ∃ c ∈ strippedFilename c64, c ≠ 46)
    (hmem : ∀ nm e, (nm, e) ∈ d'.children → nm = name ∧ e = .file (pc64Header c64 ++ w) ∨
      (nm, e) ∈ d.children) : d'.Sound := by
  intro nm content hin hpc
  rcases hmem nm _ hin with ⟨rfl, he⟩ | hin'
  · obtain rfl := Entry.file.inj he
    refine ⟨c64, w, rfl, hc, hext ?_⟩
    simp only [isPc64, Bool.and_eq_true] at hpc
    exact hpc.1.1
  · exact h nm content hin' hpc

end Dir

/-! ## The device's calls -/

/-- The file `create_local` creates has one of the hundred local names, one that is free. -/
theorem createLocal_children {c64 name : Bytes} {dir dir' : Dir}
    (h : createLocal dir c64 = (.ok name, dir')) :
    (∃ k < 100, name = pc64File (strippedFilename c64) k) ∧ (∀ e, (name, e) ∉ dir.children) ∧
      ∀ nm e, (nm, e) ∈ dir'.children ↔
        nm = name ∧ e = .file (pc64Header c64) ∨ nm ≠ name ∧ (nm, e) ∈ dir.children := by
  obtain ⟨hlocal, -, rfl⟩ := createLocal_eq_ok h
  obtain ⟨k, hk, hpc⟩ := List.mem_map.mp (List.mem_of_find?_eq_some hlocal)
  have hfree : dir.exist name = false := by simpa using List.find?_some hlocal
  refine ⟨⟨k, List.mem_range.mp hk, hpc.symm⟩, fun e hin => ?_, fun nm e => ?_⟩
  · have := Dir.exist_iff.mpr ⟨e, hin⟩
    rw [hfree] at this
    cases this
  · -- the file is written twice: empty, then with its header
    rw [Dir.mem_write, Dir.mem_write]
    exact Dir.written_twice

namespace DeviceDir

variable {d d' : DeviceDir} {c64 name w : Bytes}

/-- **What `open` for writing creates**: a file with a header and no data, under a local name that
is free once the file found under the C64 name is gone. -/
theorem openWrite_children (h : d.openWrite c64 = (.ok true, d')) :
    ∃ name local_, (∃ k < 100, name = pc64File (strippedFilename c64) k) ∧
      findLocal c64 d.dir.children = .ok local_ ∧ d'.file = .appending name ∧
      (∀ e, (name, e) ∈ d.dir.children → local_ = some name) ∧
      ∀ nm e, (nm, e) ∈ d'.dir.children ↔ nm = name ∧ e = .file (pc64Header c64) ∨
        nm ≠ name ∧ local_ ≠ some nm ∧ (nm, e) ∈ d.dir.children := by
  obtain ⟨-, local_, name, hfind, hcreate, hfile⟩ := openWrite_eq_ok h
  obtain ⟨hname, hfree, hmem⟩ := createLocal_children hcreate
  refine ⟨name, local_, hname, hfind, hfile, ?_, ?_⟩
  · intro e hin
    by_contra hne
    exact hfree e (mem_withoutOld.mpr ⟨hne, hin⟩)
  · intro nm e
    rw [hmem, mem_withoutOld]

/-- What `write` does to the file it appends to. -/
theorem write_children {content data : Bytes} (hfile : d.file = .appending name)
    (hmem : (name, .file content) ∈ d.dir.children) (h : d.write (some data) = .ok d') :
    d'.file = .appending name ∧ ∀ nm e, (nm, e) ∈ d'.dir.children ↔
      nm = name ∧ e = .file (content ++ data) ∨ nm ≠ name ∧ (nm, e) ∈ d.dir.children := by
  have hlookup := Dir.lookup_eq_some.mpr hmem
  simp only [write, hfile, hlookup] at h
  obtain rfl := Except.ok.inj h
  exact ⟨rfl, fun nm e => Dir.mem_write⟩

/-- `open` for reading finds what the map has under the name. -/
theorem openRead_of_mirrors {m : Bytes → Option Bytes} (h : d.dir.Mirrors m)
    (hlisting : c64.head? ≠ some 36) :
    match m c64 with
    | none => d.openRead c64 = .ok (false, d)
    | some w => d.openRead c64 = .ok (true, { d with file := .reading w }) := by
  rw [openRead, if_neg hlisting]
  rcases h.toSound.findLocal_cases c64 with ⟨nm, hfind, hn⟩ | ⟨hfind, hnone⟩
  · obtain ⟨w, hmem, hc, hw⟩ := h.content hn
    simp only [hw, hfind, Dir.lookup_eq_some.mpr hmem, drop_pc64Header hc.length]
  · cases hm : m c64 with
    | none => simp only [hfind]
    | some w =>
        obtain ⟨nm, hn⟩ := h.complete c64 w hm
        exact absurd hn (hnone nm)

/-! ## Operations -/

/-- The writes between `open` and `close`. -/
theorem writes_children {chunks : List Bytes} {content : Bytes} (hfile : d.file = .appending name)
    (hmem : (name, .file content) ∈ d.dir.children)
    (h : chunks.foldlM (fun d chunk => d.write (some chunk)) d = .ok d') :
    d'.file = .appending name ∧ ∀ nm e, (nm, e) ∈ d'.dir.children ↔
      nm = name ∧ e = .file (content ++ chunks.flatten) ∨ nm ≠ name ∧ (nm, e) ∈ d.dir.children := by
  induction chunks generalizing d content with
  | nil =>
      obtain rfl := Except.ok.inj h
      refine ⟨hfile, fun nm e => ⟨fun hin => ?_, ?_⟩⟩
      · by_cases hnm : nm = name
        · subst hnm
          exact Or.inl ⟨rfl, by rw [Dir.eq_of_mem hin hmem]; simp⟩
        · exact Or.inr ⟨hnm, hin⟩
      · rintro (⟨rfl, rfl⟩ | ⟨-, hin⟩)
        · simpa using hmem
        · exact hin
  | cons chunk chunks ih =>
      rw [List.foldlM_cons] at h
      cases hwrite : d.write (some chunk) with
      | error err =>
          rw [hwrite] at h
          cases h
      | ok d₁ =>
          rw [hwrite] at h
          obtain ⟨hfile₁, hmem₁⟩ := write_children hfile hmem hwrite
          obtain ⟨hfile', hmem'⟩ := ih hfile₁ ((hmem₁ _ _).mpr (Or.inl ⟨rfl, rfl⟩)) h
          refine ⟨hfile', fun nm e => ?_⟩
          rw [hmem', hmem₁, List.flatten_cons, List.append_assoc]
          exact Dir.written_twice

/-- A file written as a whole: `open`, the writes and `close`. -/
def writeFile (d : DeviceDir) (op : Bytes × List Bytes) : Except RubyError DeviceDir :=
  match d.openFile op.1 .write with
  | (.error err, _) => .error err
  | (.ok _, d) => do
      let d ← op.2.foldlM (fun d chunk => d.write (some chunk)) d
      d.close

/-- **What a whole operation does to the directory.** -/
theorem writeFile_children {op : Bytes × List Bytes} (h : d.writeFile op = .ok d') :
    ∃ name local_, (∃ k < 100, name = pc64File (strippedFilename (decode op.1)) k) ∧
      findLocal (decode op.1) d.dir.children = .ok local_ ∧
      (∀ e, (name, e) ∈ d.dir.children → local_ = some name) ∧
      ∀ nm e, (nm, e) ∈ d'.dir.children ↔
        nm = name ∧ e = .file (pc64Header (decode op.1) ++ op.2.flatten) ∨
          nm ≠ name ∧ local_ ≠ some nm ∧ (nm, e) ∈ d.dir.children := by
  simp only [writeFile, openFile] at h
  rcases hopen : d.openWrite (decode op.1) with ⟨err | opened, d₁⟩
  · rw [hopen] at h
    cases h
  · obtain rfl := (openWrite_eq_ok hopen).1
    rw [hopen] at h
    obtain ⟨name, local_, hname, hfind, hfile, hfree, hmem⟩ := openWrite_children hopen
    cases hwrites : op.2.foldlM (fun d chunk => d.write (some chunk)) d₁ with
    | error err =>
        simp only [hwrites, bind, Except.bind] at h
        cases h
    | ok d₂ =>
        simp only [hwrites, bind, Except.bind] at h
        obtain ⟨hfile₂, hmem₂⟩ :=
          writes_children hfile ((hmem _ _).mpr (Or.inl ⟨rfl, rfl⟩)) hwrites
        simp only [close, hfile₂, Handle.close, bind, Except.bind] at h
        obtain rfl := Except.ok.inj h
        refine ⟨name, local_, hname, hfind, hfree, fun nm e => ?_⟩
        rw [hmem₂, hmem]
        exact Dir.written_twice

/-- An operation on a name that can be kept changes the map at that name. -/
theorem mirrors_writeFile {m : Bytes → Option Bytes} {op : Bytes × List Bytes}
    (h : d.dir.Mirrors m) (hc : C64Name (decode op.1)) (hkeep : Keepable (decode op.1))
    (hrun : d.writeFile op = .ok d') :
    d'.dir.Mirrors (Function.update m (decode op.1) (some op.2.flatten)) := by
  obtain ⟨name, local_, ⟨k, hk, hname⟩, hfind, hfree, hmem⟩ := writeFile_children hrun
  have hext : isPc64Ext (extname name) = true := by
    rw [hname]
    exact (isPc64Ext_pc64File hk _).mpr hkeep.1
  -- what has been found is the only file with the name
  have hlocal : ∀ nm, local_ = some nm ↔ d.dir.Named (decode op.1) nm := by
    intro nm
    rcases h.toSound.findLocal_cases (decode op.1) with ⟨nm', hf, hn⟩ | ⟨hf, hnone⟩
    · obtain rfl : some nm' = local_ := Except.ok.inj (hf.symm.trans hfind)
      refine ⟨fun heq => ?_, fun hn' => congrArg some (h.unique _ _ _ hn hn')⟩
      obtain rfl := Option.some.inj heq
      exact hn
    · obtain rfl : none = local_ := Except.ok.inj (hf.symm.trans hfind)
      refine ⟨fun heq => ?_, fun hn => absurd hn (hnone nm)⟩
      cases heq
  refine h.put hc hkeep hext (fun nm e => ?_) fun e hin => (hlocal name).mp (hfree e hin)
  rw [hmem]
  simp only [ne_eq, hlocal]

/-- An operation on any name leaves the directory sound. -/
theorem sound_writeFile {op : Bytes × List Bytes} (h : d.dir.Sound) (hc : C64Name (decode op.1))
    (hrun : d.writeFile op = .ok d') : d'.dir.Sound := by
  obtain ⟨name, local_, ⟨k, hk, hname⟩, -, -, hmem⟩ := writeFile_children hrun
  have hext : isPc64Ext (extname name) = true → ∃ c ∈ strippedFilename (decode op.1), c ≠ 46 := by
    rw [hname]
    exact (isPc64Ext_pc64File hk _).mp
  refine h.put (w := op.2.flatten) hc hext fun nm e hin => ?_
  rcases (hmem nm e).mp hin with hnew | ⟨-, -, hold⟩
  · exact Or.inl hnew
  · exact Or.inr hold

/-! ## Sequences of operations -/

def writeFiles (d : DeviceDir) (ops : List (Bytes × List Bytes)) : Except RubyError DeviceDir :=
  ops.foldlM writeFile d

/-- The map once a name has been written. -/
def recordWrite (m : Bytes → Option Bytes) (op : Bytes × List Bytes) : Bytes → Option Bytes :=
  Function.update m (decode op.1) (some op.2.flatten)

/-- The map after the operations: the data of the last write of each name. -/
def contentsAfter (ops : List (Bytes × List Bytes)) : Bytes → Option Bytes :=
  ops.foldl recordWrite fun _ => none

/-- A property of directories that whole operations keep. -/
theorem writeFiles_invariant {σ : Type} {I : σ → Dir → Prop} (next : σ → Bytes × List Bytes → σ) :
    ∀ (ops : List (Bytes × List Bytes)) (a : σ) (d d' : DeviceDir),
      (∀ op ∈ ops, ∀ a (d d' : DeviceDir), I a d.dir → d.writeFile op = .ok d' →
        I (next a op) d'.dir) →
      I a d.dir → d.writeFiles ops = .ok d' → I (ops.foldl next a) d'.dir
  | [], _, _, _, _, h, hrun => by
      obtain rfl := Except.ok.inj hrun
      exact h
  | op :: ops, a, d, d', hstep, h, hrun => by
      rw [writeFiles, List.foldlM_cons] at hrun
      cases hop : d.writeFile op with
      | error err =>
          rw [hop] at hrun
          cases hrun
      | ok d₁ =>
          rw [hop] at hrun
          exact writeFiles_invariant next ops (next a op) d₁ d'
            (fun op hop => hstep op (List.mem_cons_of_mem _ hop))
            (hstep op List.mem_cons_self a d d₁ h hop) hrun

/-- A directory without PC64 files. -/
def NoPc64 (d : Dir) : Prop := ∀ nm e, (nm, e) ∈ d.children → isPc64 nm e = false

theorem mirrors_of_noPc64 {dir : Dir} (h : NoPc64 dir) : dir.Mirrors fun _ => none where
  sound nm content hmem hpc := absurd hpc (by simp [h nm _ hmem])
  complete c64 w hw := by cases hw
  unique c64 nm nm' hn _ := by
    obtain ⟨content, hmem, hpc, -⟩ := hn
    exact absurd hpc (by simp [h nm _ hmem])

/-- The directory holds what has been written, if all the names can be kept. -/
theorem mirrors_writeFiles {ops : List (Bytes × List Bytes)} (h : NoPc64 d.dir)
    (hc : ∀ op ∈ ops, C64Name (decode op.1)) (hkeep : ∀ op ∈ ops, Keepable (decode op.1))
    (hrun : d.writeFiles ops = .ok d') : d'.dir.Mirrors (contentsAfter ops) :=
  writeFiles_invariant (I := fun m dir => dir.Mirrors m) _ ops _ d d'
    (fun op hop _ _ _ hm hw => mirrors_writeFile hm (hc op hop) (hkeep op hop) hw)
    (mirrors_of_noPc64 h) hrun

theorem sound_writeFiles {ops : List (Bytes × List Bytes)} (h : NoPc64 d.dir)
    (hc : ∀ op ∈ ops, C64Name (decode op.1)) (hrun : d.writeFiles ops = .ok d') : d'.dir.Sound :=
  writeFiles_invariant (I := fun (_ : Unit) dir => dir.Sound) (fun a _ => a) ops () d d'
    (fun op hop _ _ _ hs hw => sound_writeFile hs (hc op hop) hw)
    (mirrors_of_noPc64 h).toSound hrun

/-- What is in the map, or is written, is in the map afterwards. -/
theorem isSome_foldl_recordWrite (c64 : Bytes) :
    ∀ (ops : List (Bytes × List Bytes)) (m : Bytes → Option Bytes),
      (m c64).isSome = true ∨ (∃ op ∈ ops, decode op.1 = c64) →
      (ops.foldl recordWrite m c64).isSome = true
  | [], m, h => by
      rcases h with h | ⟨op, hop, -⟩
      · exact h
      · cases hop
  | op :: ops, m, h => by
      refine isSome_foldl_recordWrite c64 ops (recordWrite m op) ?_
      by_cases hc : decode op.1 = c64
      · refine Or.inl ?_
        rw [recordWrite, hc, Function.update_self]
        rfl
      · rcases h with h | ⟨op', hop', hc'⟩
        · refine Or.inl ?_
          rwa [recordWrite, Function.update_of_ne (Ne.symm hc)]
        · rcases List.mem_cons.mp hop' with rfl | hop'
          · exact absurd hc' hc
          · exact Or.inr ⟨op', hop', hc'⟩

theorem contentsAfter_isSome {ops : List (Bytes × List Bytes)} {op : Bytes × List Bytes}
    (hop : op ∈ ops) : (contentsAfter ops (decode op.1)).isSome = true :=
  isSome_foldl_recordWrite _ ops _ (Or.inr ⟨op, hop, rfl⟩)

end DeviceDir

end C64Iec.Server
