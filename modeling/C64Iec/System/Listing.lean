import C64Iec.Server.Opens
import C64Iec.System.Names

set_option autoImplicit false

/-! # The listing of a directory and what can be loaded from it

`directory` writes a line for each file with the extension `.p00`; `find_local` looks at the files
with an extension `.p00` to `.p99` and a PC64 header. `ListingAgrees` says that the files with a
line are the files that some name opens. `listingAgrees_iff` is the condition on the directory under
which they are.
-/

namespace C64Iec.Server

open Lib

/-! ## Lines -/

/-- The line of a file with this C64 name and this number of blocks. -/
def entryLine (filename : Bytes) (size : Int) : Bytes :=
  let b := 1 + (if size < 100 then 1 else 0) + (if size < 10 then 1 else 0)
  [1, 1] ++ le16Bytes size ++ List.replicate b 32 ++ [34] ++ filename ++ [34]
    ++ List.replicate (17 - filename.length) 32 ++ ascii " PRG " ++ List.replicate (3 - b) 32
    ++ [0]

/-- What has been stripped once is not stripped further. -/
theorem stripPadding_stripPadding (s : Bytes) : stripPadding (stripPadding s) = stripPadding s := by
  have hbrk : ∀ c : Byte, (c == 32 || c == 0xa0 || c == 0) = true → isLineFeed c = false := by
    intro c hc
    by_contra hlf
    obtain rfl : c = 10 := by simpa [isLineFeed] using hlf
    exact absurd hc (by decide)
  exact (stripLineEnds_eq_self_iff hbrk _).mpr (not_padAtLineEnd_stripLineEnds hbrk s)

/-- A line shows the name under which `find_local` finds the file. -/
theorem dirEntry_eq {content : Bytes} (h : 8 ≤ content.length) :
    dirEntry content =
      .ok (entryLine (c64Name content) (((content.length : Int) - PC64_HEADER_SIZE) / 256)) := by
  have hlen : (stripPadding (c64Name content)).length ≤ PC64_FILENAME_SIZE :=
    ((stripPadding_length_le _).trans (stripPadding_length_le _)).trans
      (List.length_take_le _ _)
  have hname : stripPadding (c64Name content) = c64Name content := stripPadding_stripPadding _
  simp only [dirEntry, pc64C64Filename_of_le h, ok_bind, rewriteFilename_of_le hlen, hname]
  rfl

theorem entryLine_ne_nil (filename : Bytes) (size : Int) : entryLine filename size ≠ [] := by
  simp [entryLine]

theorem dirEntries_cons (child : Bytes × Entry) (rest : List (Bytes × Entry)) :
    dirEntries (child :: rest) = do
      let line ← dirEntries [child]
      let more ← dirEntries rest
      return line ++ more := by
  obtain ⟨name, e⟩ := child
  cases e with
  | other =>
      simp only [dirEntries, ok_bind, List.nil_append]
      cases dirEntries rest <;> rfl
  | file content =>
      by_cases hp00 : isP00 name = false
      · simp only [dirEntries, hp00, if_true, ok_bind, List.nil_append]
        cases dirEntries rest <;> rfl
      · simp only [dirEntries, if_neg hp00]
        cases dirEntry content with
        | error e => rfl
        | ok line => simp [bind, Except.bind, pure, Except.pure]

/-- The listing consists of the lines of the children. -/
theorem dirEntries_eq_ok : ∀ {children : List (Bytes × Entry)} {bytes : Bytes},
    dirEntries children = .ok bytes ↔
      ∃ lines, List.Forall₂ (fun child line => dirEntries [child] = .ok line) children lines ∧
        bytes = lines.flatten
  | [], bytes => by
      rw [dirEntries, Except.ok.injEq]
      constructor
      · rintro rfl
        exact ⟨[], .nil, rfl⟩
      · rintro ⟨_, hall, rfl⟩
        cases hall
        rfl
  | child :: rest, bytes => by
      rw [dirEntries_cons, bind_eq_ok]
      simp only [bind_eq_ok, @dirEntries_eq_ok rest, pure, Except.pure, Except.ok.injEq]
      constructor
      · rintro ⟨line, hline, more, ⟨lines, hlines, rfl⟩, rfl⟩
        exact ⟨line :: lines, .cons hline hlines, rfl⟩
      · rintro ⟨_, hall, rfl⟩
        cases hall with
        | cons hline hlines => exact ⟨_, hline, _, ⟨_, hlines, rfl⟩, rfl⟩

/-! ## Finding a file -/

/-- Every C64 name is what some request decodes to. -/
theorem decode_surjective : Function.Surjective decode := by
  intro c64
  refine ⟨Client.encode ([64, 48, 58] ++ afterBreaks [64, 48, 58] isLineFeed c64), ?_⟩
  rw [decode, unescape_encode]
  exact stripLineStarts_afterBreaks (by simp) (fun r => atDigitColon_eq_some.mpr ⟨48, rfl, rfl⟩) c64

/-- `open` for reading, of this C64 name, finds this file. -/
structure Finds (d : DeviceDir) (c64 name content : Bytes) : Prop where
  found : findLocal c64 d.dir.children = .ok (some name)
  opened : ∃ filename, decode filename = c64 ∧ d.openFile filename .read =
    (.ok true, { d with file := .reading (content.drop PC64_HEADER_SIZE) })
  listed : (name, .file content) ∈ d.dir.children

/-- A file that can be loaded: a PC64 file with a whole name in its header, which is no name of a
listing and the first of its kind. -/
structure Loadable (d : DeviceDir) (name content : Bytes) : Prop where
  pc64 : isPc64 name (.file content) = true
  headed : 8 ≤ content.length
  program : (c64Name content).head? ≠ some 36
  first : ∃ pre post, d.dir.children = pre ++ (name, .file content) :: post ∧
    ∀ name' content', (name', .file content') ∈ pre → isPc64 name' (.file content') = true →
      8 ≤ content'.length ∧ c64Name content' ≠ c64Name content

variable {d : DeviceDir} {c64 name content : Bytes}

theorem carries_file : carries c64 (name, .file content) = true ↔
    isPc64 name (.file content) = true ∧ 8 ≤ content.length ∧ c64Name content = c64 := by
  simp [carries, Entry.headed, and_assoc]

/-- The children that are passed over on the way to one that carries the name. -/
theorem takeWhile_not_carries {pre post : List (Bytes × Entry)} {child : Bytes × Entry}
    (hchild : carries c64 child = true) (hpre : ∀ c ∈ pre, carries c64 c = false) :
    (pre ++ child :: post).takeWhile (!carries c64 ·) = pre := by
  rw [List.takeWhile_append_of_pos fun c hc => by simp [hpre c hc],
    List.takeWhile_cons_of_neg (by simp [hchild]), List.append_nil]

/-- `find_local` finds the first file with the name if the PC64 files before it have headers. -/
theorem findLocal_eq_some_iff : findLocal c64 d.dir.children = .ok (some name) ∧
      (name, .file content) ∈ d.dir.children ↔
    carries c64 (name, .file content) = true ∧
      ∃ pre post, d.dir.children = pre ++ (name, .file content) :: post ∧
        ∀ name' content', (name', .file content') ∈ pre → isPc64 name' (.file content') = true →
          8 ≤ content'.length ∧ c64Name content' ≠ c64 := by
  have hcases := findLocal_eq c64 d.dir.children
  constructor
  · rintro ⟨hfind, hmem⟩
    rcases hcases with ⟨hsearch, hfound⟩ | ⟨-, herror⟩
    · rw [hfind, Except.ok.injEq, eq_comm, Option.map_eq_some_iff] at hfound
      obtain ⟨⟨name', e⟩, hfound, rfl⟩ := hfound
      obtain rfl := Dir.eq_of_mem (List.mem_of_find?_eq_some hfound) hmem
      obtain ⟨hcarries, pre, post, hsplit, hpre⟩ := List.find?_eq_some_iff_append.mp hfound
      have hpre : ∀ c ∈ pre, carries c64 c = false := by simpa using hpre
      refine ⟨hcarries, pre, post, hsplit, fun name'' content'' hin hpc => ?_⟩
      rw [Searchable, hsplit, takeWhile_not_carries hcarries hpre] at hsearch
      have hheaded : 8 ≤ content''.length := by
        simpa [Entry.headed] using hsearch _ hin hpc
      refine ⟨hheaded, fun hname => ?_⟩
      have := hpre _ hin
      rw [carries_file.mpr ⟨hpc, hheaded, hname⟩] at this
      cases this
    · rw [hfind] at herror
      cases herror
  · rintro ⟨hcarries, pre, post, hsplit, hpre⟩
    -- the files before it have other names, so it is the first with this one
    have hnot : ∀ c ∈ pre, carries c64 c = false := by
      rintro ⟨name', e⟩ hin
      cases e with
      | other => rfl
      | file content' =>
          by_contra hc
          obtain ⟨hpc, -, hname⟩ := carries_file.mp (by simpa using hc)
          exact (hpre name' content' hin hpc).2 hname
    have hfound : d.dir.children.find? (carries c64) = some (name, .file content) :=
      List.find?_eq_some_iff_append.mpr ⟨hcarries, pre, post, hsplit, by simpa using hnot⟩
    refine ⟨?_, List.mem_of_find?_eq_some hfound⟩
    rcases hcases with ⟨-, hfind⟩ | ⟨hnsearch, -⟩
    · rw [hfind, hfound]
      rfl
    · refine absurd ?_ hnsearch
      rw [Searchable, hsplit, takeWhile_not_carries hcarries hnot]
      rintro ⟨name', e⟩ hin hpc
      cases e with
      | other => rfl
      | file content' => simpa [Entry.headed] using (hpre name' content' hin hpc).1

/-- **What can be loaded** is found under its own name, and under no other. -/
theorem finds_iff : Finds d c64 name content ↔ Loadable d name content ∧ c64Name content = c64 := by
  constructor
  · rintro ⟨hfind, ⟨filename, rfl, hopen⟩, hmem⟩
    obtain ⟨hcarries, hfirst⟩ := findLocal_eq_some_iff.mp ⟨hfind, hmem⟩
    obtain ⟨hpc, hheaded, hname⟩ := carries_file.mp hcarries
    refine ⟨⟨hpc, hheaded, fun hdollar => ?_, by rwa [hname]⟩, hname⟩
    -- a name that begins with "$" opens the listing
    rw [hname] at hdollar
    simp only [DeviceDir.openFile, DeviceDir.openRead, if_pos hdollar] at hopen
    cases hlisting : directory d.dir with
    | error e => simp [hlisting] at hopen
    | ok listing => simp [hlisting, ok_bind, pure, Except.pure] at hopen
  · rintro ⟨h, rfl⟩
    obtain ⟨hfind, hmem⟩ := findLocal_eq_some_iff.mpr
      ⟨carries_file.mpr ⟨h.pc64, h.headed, rfl⟩, h.first⟩
    refine ⟨hfind, ?_, hmem⟩
    obtain ⟨filename, hdecode⟩ := decode_surjective (c64Name content)
    refine ⟨filename, hdecode, ?_⟩
    simp [DeviceDir.openFile, hdecode, DeviceDir.openRead, h.program, hfind,
      Dir.lookup_eq_some.mpr hmem]

/-! ## The listing -/

/-- `directory` writes these lines for the children, one behind the other. -/
structure Lists (d : DeviceDir) (lines : List Bytes) : Prop where
  opened : d.openFile (ascii "$") .read =
    (.ok true, { d with file := Handle.stringIO (dirHeader ++ lines.flatten ++ dirFooter) 0 })
  lines : List.Forall₂ (fun child line => dirEntries [child] = .ok line) d.dir.children lines

/-- The listing shows the files that some name finds, each under this name, and no other file. -/
def ListingAgrees (d : DeviceDir) : Prop :=
  ∃ lines, Lists d lines ∧ List.Forall₂ (fun child line =>
    (∃ c64 content size, child.2 = .file content ∧ Finds d c64 child.1 content ∧
        line = entryLine c64 size) ∨
      (∀ c64 content, child.2 = .file content → ¬Finds d c64 child.1 content) ∧ line = [])
    d.dir.children lines

/-- What one child adds to the listing. -/
theorem dirEntries_file (name content : Bytes) :
    dirEntries [(name, .file content)] =
      if isP00 name = true then dirEntry content else .ok [] := by
  by_cases hp00 : isP00 name = true
  · rw [if_pos hp00, dirEntries, if_neg (by simp [hp00])]
    cases dirEntry content <;> simp [dirEntries, bind, Except.bind, pure, Except.pure]
  · rw [if_neg hp00, dirEntries, if_pos (by simpa using hp00)]
    rfl

theorem openFile_dollar_iff {listing : Bytes} :
    d.openFile (ascii "$") .read = (.ok true, { d with file := Handle.stringIO listing 0 }) ↔
      directory d.dir = .ok listing := by
  have hdecode : decode (ascii "$") = [36] := by decide
  simp only [DeviceDir.openFile, DeviceDir.openRead, hdecode, List.head?_cons, if_true]
  cases directory d.dir with
  | error e => simp
  | ok listing' => simp [ok_bind, pure, Except.pure]

/-- The lines can be found child by child. -/
theorem listingAgrees_iff_forall : ListingAgrees d ↔ ∀ child ∈ d.dir.children, ∃ line,
    dirEntries [child] = .ok line ∧
      ((∃ c64 content size, child.2 = .file content ∧ Finds d c64 child.1 content ∧
          line = entryLine c64 size) ∨
        (∀ c64 content, child.2 = .file content → ¬Finds d c64 child.1 content) ∧ line = []) := by
  rw [ListingAgrees]
  constructor
  · rintro ⟨lines, hlists, hshow⟩ child hchild
    obtain ⟨i, hi, rfl⟩ := List.mem_iff_getElem.mp hchild
    have hi' : i < lines.length := hshow.length_eq ▸ hi
    exact ⟨lines[i], (List.forall₂_iff_get.mp hlists.lines).2 i hi hi',
      (List.forall₂_iff_get.mp hshow).2 i hi hi'⟩
  · intro hall
    choose! line hline hshow using hall
    have hlines : List.Forall₂ (fun child l => dirEntries [child] = .ok l) d.dir.children
        (d.dir.children.map line) :=
      List.forall₂_map_right_iff.mpr (List.forall₂_same.mpr hline)
    refine ⟨d.dir.children.map line, ⟨openFile_dollar_iff.mpr ?_, hlines⟩,
      List.forall₂_map_right_iff.mpr (List.forall₂_same.mpr hshow)⟩
    rw [directory, dirEntries_eq_ok.mpr ⟨_, hlines, rfl⟩]
    rfl

/-- **The listing agrees with what can be loaded** exactly when the files with the extension `.p00`
are the files that can be loaded. -/
theorem listingAgrees_iff (d : DeviceDir) : ListingAgrees d ↔
    ∀ name content, (name, .file content) ∈ d.dir.children →
      (isP00 name = true ↔ Loadable d name content) := by
  rw [listingAgrees_iff_forall]
  constructor
  · intro hall name content hmem
    obtain ⟨line, hline, hshow⟩ := hall _ hmem
    rw [dirEntries_file] at hline
    rcases hshow with ⟨c64, content', size, hfile, hfinds, rfl⟩ | ⟨hnone, rfl⟩
    · cases hfile
      refine iff_of_true ?_ (finds_iff.mp hfinds).1
      by_contra hp00
      rw [if_neg hp00, Except.ok.injEq] at hline
      exact entryLine_ne_nil _ _ hline.symm
    · refine iff_of_false ?_ fun hload => hnone _ _ rfl (finds_iff.mpr ⟨hload, rfl⟩)
      intro hp00
      rw [if_pos hp00] at hline
      -- a `.p00` file has a line, or a header the listing raises on
      by_cases hlen : 8 ≤ content.length
      · rw [dirEntry_eq hlen, Except.ok.injEq] at hline
        exact entryLine_ne_nil _ _ hline
      · rw [dirEntry, pc64C64Filename_of_lt (Nat.lt_of_not_le hlen)] at hline
        cases hline
  · rintro hall ⟨name, e⟩ hmem
    cases e with
    | other =>
        exact ⟨[], rfl, Or.inr ⟨fun _ _ hfile => (by cases hfile), rfl⟩⟩
    | file content =>
        rw [dirEntries_file]
        by_cases hload : Loadable d name content
        · rw [if_pos ((hall name content hmem).mpr hload), dirEntry_eq hload.headed]
          exact ⟨_, rfl, Or.inl ⟨_, content, _, rfl, finds_iff.mpr ⟨hload, rfl⟩, rfl⟩⟩
        · rw [if_neg (mt (hall name content hmem).mp hload)]
          refine ⟨[], rfl, Or.inr ⟨fun c64 content' hfile hfinds => ?_, rfl⟩⟩
          cases hfile
          exact hload (finds_iff.mp hfinds).1

/-- A directory in which "A" and then "a" have been saved: the second file is `a.p01`. -/
def savedTwice : DeviceDir where
  dir :=
    { children := [(ascii "a.p00", .file (pc64Header (ascii "A"))),
        (ascii "a.p01", .file (pc64Header (ascii "a")))]
      place := fun _ _ => 0
      nodup := by decide }
  file := .unset

/-- The second file can be loaded, and is not listed. -/
theorem not_listingAgrees_savedTwice : ¬ListingAgrees savedTwice := by
  intro h
  have hload : Loadable savedTwice (ascii "a.p01") (pc64Header (ascii "a")) :=
    { pc64 := by decide
      headed := by decide
      program := by decide
      first := ⟨[(ascii "a.p00", .file (pc64Header (ascii "A")))], [], rfl, by
        intro name content hmem _
        obtain ⟨rfl, hcontent⟩ := Prod.mk.inj (List.mem_singleton.mp hmem)
        obtain rfl := Entry.file.inj hcontent
        decide⟩ }
  obtain ⟨line, hline, hshow⟩ := listingAgrees_iff_forall.mp h
    (ascii "a.p01", .file (pc64Header (ascii "a"))) (by simp [savedTwice])
  rw [dirEntries_file, if_neg (by decide), Except.ok.injEq] at hline
  rcases hshow with ⟨c64, content, size, -, -, rfl⟩ | ⟨hnone, -⟩
  · exact entryLine_ne_nil _ _ hline.symm
  · exact hnone _ _ rfl (finds_iff.mpr ⟨hload, rfl⟩)

end C64Iec.Server
