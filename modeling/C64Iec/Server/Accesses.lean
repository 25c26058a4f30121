import C64Iec.Server.Directory
import C64Iec.Server.Opens

set_option autoImplicit false

/-! # The paths a directory device opens

`DeviceDir#open` once more, with the paths it gives to `File.open` and `unlink` beside its result:
the paths of the children it looks at, and `file_path` of the name it makes up. They are all paths
of children of the device's directory, whatever name is asked for, and of the files in there only
the one that `find_local` has found is touched (`open_confined`).
-/

namespace C64Iec.Server

/-! ## Paths -/

/-- `File.join(path, name)`, the path `each_child` gives a child. -/
def childPath (path name : Bytes) : Bytes :=
  -- children of the working directory are given without it
  if path = [46] then name
  else if path.getLast? = some 47 then path ++ name
  else path ++ [47] ++ name

/-- `file_path` -/
def filePath (path filename : Bytes) : Bytes := path ++ [47] ++ filename

/-- The name of a child of a directory. -/
structure IsName (name : Bytes) : Prop where
  ne_nil : name ≠ []
  slash : ∀ c ∈ name, c ≠ 47
  nul : ∀ c ∈ name, c ≠ 0
  ne_dot : name ≠ [46]
  ne_dotdot : name ≠ [46, 46]

/-- A path of a child of the directory `path`. -/
def DirectChild (path p : Bytes) : Prop :=
  ∃ name, IsName name ∧ (p = childPath path name ∨ p = filePath path name)

/-! ## The calls -/

/-- How a file is opened: to be read, created anew, or appended to. -/
inductive OpenMode where
  | read
  | create
  | append
  deriving DecidableEq, Repr

/-- A call of `File.open` or `unlink`. -/
inductive Access where
  | open (path : Bytes) (mode : OpenMode)
  | unlink (path : Bytes)
  deriving DecidableEq, Repr

def Access.path : Access → Bytes
  | .open path _ => path
  | .unlink path => path

/-- `find_local`: a child whose extension fits is opened by `is_pc64?`, and a PC64 file once more
for its name. -/
def findLocalLogged (path c64 : Bytes) :
    List (Bytes × Entry) → List Access × Except RubyError (Option Bytes)
  | [] => ([], .ok none)
  | (name, e) :: rest =>
      let more := findLocalLogged path c64 rest
      match e with
      | .other => more
      | .file content =>
          if isPc64Ext (extname name) = false then more else
          let opened := Access.open (childPath path name) .read
          if isPc64 name e = false then (opened :: more.1, more.2) else
          match pc64C64Filename content with
          | .error err => ([opened, opened], .error err)
          | .ok c64' =>
              if c64' = c64 then ([opened, opened], .ok (some name))
              else (opened :: opened :: more.1, more.2)

/-- `create_local`. Without a free name `file_path` gets `nil`, and the path is that of the
directory. -/
def createLocalLogged (path : Bytes) (d : Dir) (c64 : Bytes) :
    List Access × Except RubyError Bytes × Dir :=
  match localEncode d c64 with
  | none => ([.open (filePath path []) .create], .error .systemCallError, d)
  | some name =>
      let d := d.write name []
      let opened := Access.open (filePath path name) .create
      if c64.length > PC64_FILENAME_SIZE then ([opened], .error .argumentError, d)
      else ([opened], .ok name, d.write name (pc64Header c64))

def dirEntriesLogged (path : Bytes) : List (Bytes × Entry) → List Access × Except RubyError Bytes
  | [] => ([], .ok [])
  | (name, e) :: rest =>
      match e with
      | .other => dirEntriesLogged path rest
      | .file content =>
          if isP00 name = false then dirEntriesLogged path rest else
          let opened := Access.open (childPath path name) .read
          match dirEntry content with
          | .error err => ([opened], .error err)
          | .ok tmp =>
              let more := dirEntriesLogged path rest
              (opened :: more.1, more.2.map (tmp ++ ·))

namespace DeviceDir

/-- `open_read`. `exist?` asks for the local file twice, and looks again when it has found none. -/
def openReadLogged (path : Bytes) (d : DeviceDir) (c64 : Bytes) :
    List Access × Except RubyError (Bool × DeviceDir) :=
  if c64.head? = some 36 then
    let entries := dirEntriesLogged path d.dir.children
    (entries.1, entries.2.map fun lines =>
      (true, { d with file := Handle.stringIO (dirHeader ++ lines ++ dirFooter) 0 }))
  else
    let found := findLocalLogged path c64 d.dir.children
    match found.2 with
    | .error err => (found.1, .error err)
    | .ok none => (found.1 ++ found.1, .ok (false, d))
    | .ok (some name) =>
        let opened := Access.open (childPath path name) .read
        match d.dir.lookup name with
        | some (.file content) => (found.1 ++ [opened],
            .ok (true, { d with file := .reading (content.drop PC64_HEADER_SIZE) }))
        | _ => (found.1 ++ [opened], .error .systemCallError)

/-- `open_write` -/
def openWriteLogged (path : Bytes) (d : DeviceDir) (c64 : Bytes) :
    List Access × Except RubyError Bool × DeviceDir :=
  let found := findLocalLogged path c64 d.dir.children
  match found.2 with
  | .error err => (found.1, .error err, d)
  | .ok local_ =>
      let removed := (local_.map fun name => Access.unlink (childPath path name)).toList
      let created := createLocalLogged path (withoutOld d.dir local_) c64
      match created.2 with
      | (.error err, dir) => (found.1 ++ removed ++ created.1, .error err, { d with dir := dir })
      | (.ok name, dir) =>
          (found.1 ++ removed ++ created.1 ++ [.open (filePath path name) .append], .ok true,
            { dir := dir, file := .appending name })

/-- `DeviceDir#open` -/
def openLogged (path : Bytes) (d : DeviceDir) (filename : Bytes) (mode : Mode) :
    List Access × Except RubyError Bool × DeviceDir :=
  let c64 := decode filename
  match mode with
  | .read =>
      let r := d.openReadLogged path c64
      match r.2 with
      | .error err => (r.1, .error err, d)
      | .ok (opened, d) => (r.1, .ok opened, d)
  | .write => d.openWriteLogged path c64

end DeviceDir

/-! ## The results are those of `open` -/

theorem findLocalLogged_snd (path c64 : Bytes) : ∀ children : List (Bytes × Entry),
    (findLocalLogged path c64 children).2 = findLocal c64 children
  | [] => rfl
  | (name, e) :: rest => by
      have ih := findLocalLogged_snd path c64 rest
      cases e with
      | other => exact ih
      | file content =>
          rw [findLocalLogged, findLocal]
          dsimp only
          by_cases hext : isPc64Ext (extname name) = false
          · have hpc : isPc64 name (.file content) = false := by simp [isPc64, hext]
            rw [if_pos hext, if_pos hpc]
            exact ih
          · rw [if_neg hext]
            by_cases hpc : isPc64 name (.file content) = false
            · rw [if_pos hpc, if_pos hpc]
              exact ih
            · rw [if_neg hpc, if_neg hpc]
              cases pc64C64Filename content with
              | error err => rfl
              | ok c64' =>
                  dsimp only
                  by_cases hname : c64' = c64
                  · rw [if_pos hname, if_pos hname]
                  · rw [if_neg hname, if_neg hname]
                    exact ih

theorem dirEntriesLogged_snd (path : Bytes) : ∀ children : List (Bytes × Entry),
    (dirEntriesLogged path children).2 = dirEntries children
  | [] => rfl
  | (name, e) :: rest => by
      have ih := dirEntriesLogged_snd path rest
      cases e with
      | other => exact ih
      | file content =>
          rw [dirEntriesLogged, dirEntries]
          dsimp only
          by_cases hext : isP00 name = false
          · rw [if_pos hext, if_pos hext]
            exact ih
          · rw [if_neg hext, if_neg hext]
            cases dirEntry content with
            | error err => rfl
            | ok tmp =>
                rw [← ih]
                generalize (dirEntriesLogged path rest).2 = more
                cases more <;> rfl

theorem createLocalLogged_snd (path : Bytes) (d : Dir) (c64 : Bytes) :
    (createLocalLogged path d c64).2 = createLocal d c64 := by
  unfold createLocalLogged createLocal
  cases localEncode d c64 with
  | none => rfl
  | some name =>
      dsimp only
      split <;> rfl

namespace DeviceDir

theorem openReadLogged_snd (path : Bytes) (d : DeviceDir) (c64 : Bytes) :
    (d.openReadLogged path c64).2 = d.openRead c64 := by
  unfold openReadLogged openRead
  by_cases hdollar : c64.head? = some 36
  · simp only [hdollar, if_true, dirEntriesLogged_snd, directory]
    cases dirEntries d.dir.children <;> rfl
  · simp only [hdollar, if_false, findLocalLogged_snd]
    cases hfound : findLocal c64 d.dir.children with
    | error err => rfl
    | ok local_ =>
        cases local_ with
        | none => rfl
        | some name =>
            dsimp only
            cases hlookup : d.dir.lookup name with
            | none => rfl
            | some e => cases e <;> rfl

theorem openWriteLogged_snd (path : Bytes) (d : DeviceDir) (c64 : Bytes) :
    (d.openWriteLogged path c64).2 = d.openWrite c64 := by
  unfold openWriteLogged
  simp only [findLocalLogged_snd]
  cases hfound : findLocal c64 d.dir.children with
  | error err => simp only [openWrite, hfound]
  | ok local_ =>
      rw [openWrite_eq hfound]
      simp only [createLocalLogged_snd]
      generalize createLocal (withoutOld d.dir local_) c64 = r
      rcases r with ⟨err | name, dir⟩ <;> rfl

/-- The paths are logged beside what `open` does. -/
theorem openLogged_snd (path : Bytes) (d : DeviceDir) (filename : Bytes) (mode : Mode) :
    (d.openLogged path filename mode).2 = d.openFile filename mode := by
  cases mode with
  | read =>
      simp only [openLogged, openFile, openReadLogged_snd]
      cases d.openRead (decode filename) <;> rfl
  | write => exact openWriteLogged_snd path d (decode filename)

end DeviceDir

/-! ## Names made up for a file -/

theorem isLocalChar_ne {c : Byte} (h : isLocalChar c = true) : c ≠ 47 ∧ c ≠ 0 := by
  constructor
  · rintro rfl
    exact absurd h (by decide)
  · rintro rfl
    exact absurd h (by decide)

theorem pc64File_chars {k : Nat} (hk : k < 100) (c64 : Bytes) :
    ∀ c ∈ pc64File (strippedFilename c64) k, isLocalChar c = true := by
  have hdigit : ∀ n < 10, isLocalChar (UInt8.ofNat (48 + n)) = true := by decide
  have hext : ∀ c ∈ ascii ".p", isLocalChar c = true := by decide
  intro c hc
  simp only [pc64File, List.mem_append, List.mem_cons, List.not_mem_nil, or_false] at hc
  rcases hc with (hc | hc) | rfl | rfl
  · exact (List.mem_filter.mp hc).2
  · exact hext c hc
  · exact hdigit _ (by omega)
  · exact hdigit _ (by omega)

/-- Whatever the C64 name is, the local name is that of a child. -/
theorem pc64File_isName {k : Nat} (hk : k < 100) (c64 : Bytes) :
    IsName (pc64File (strippedFilename c64) k) := by
  have hchars := pc64File_chars hk c64
  have hlen : 4 ≤ (pc64File (strippedFilename c64) k).length := by
    have hext : (ascii ".p").length = 2 := by decide
    simp only [pc64File, List.length_append, List.length_cons, List.length_nil, hext]
    omega
  constructor
  · intro h
    rw [h] at hlen
    exact absurd hlen (by decide)
  · exact fun c hc => (isLocalChar_ne (hchars c hc)).1
  · exact fun c hc => (isLocalChar_ne (hchars c hc)).2
  · intro h
    rw [h] at hlen
    exact absurd hlen (by decide)
  · intro h
    rw [h] at hlen
    exact absurd hlen (by decide)

theorem localEncode_some {d : Dir} {c64 name : Bytes} (h : localEncode d c64 = some name) :
    IsName name ∧ d.exist name = false := by
  obtain ⟨k, hk, rfl⟩ := List.mem_map.mp (List.mem_of_find?_eq_some h)
  have hfree := List.find?_some h
  exact ⟨pc64File_isName (List.mem_range.mp hk) c64, by simpa using hfree⟩

theorem localEncode_none {d : Dir} {c64 : Bytes} (h : localEncode d c64 = none) :
    ∀ k < 100, d.exist (pc64File (strippedFilename c64) k) = true := by
  intro k hk
  have htaken := List.find?_eq_none.mp h _ (List.mem_map_of_mem (List.mem_range.mpr hk))
  simpa using htaken

/-! ## Where the paths lead -/

/-- What `find_local` finds is a child with the name asked for. -/
theorem findLocal_some {c64 name : Bytes} : ∀ {children : List (Bytes × Entry)},
    findLocal c64 children = .ok (some name) → ∃ content, (name, .file content) ∈ children ∧
      pc64C64Filename content = .ok c64
  | (nm, e) :: rest, h => by
      have hrest : findLocal c64 rest = .ok (some name) →
          ∃ content, (name, .file content) ∈ (nm, e) :: rest ∧ pc64C64Filename content = .ok c64 := by
        intro h'
        obtain ⟨content, hmem, hname⟩ := findLocal_some h'
        exact ⟨content, List.mem_cons_of_mem _ hmem, hname⟩
      cases e with
      | other => exact hrest h
      | file content =>
          rw [findLocal] at h
          split at h
          · exact hrest h
          · split at h
            · cases h
            · rename_i c64' hc64
              split at h
              · rename_i heq
                cases h
                exact ⟨content, List.mem_cons_self, heq ▸ hc64⟩
              · exact hrest h

/-- `find_local` opens children. -/
theorem mem_findLocalLogged {path c64 : Bytes} {a : Access} : ∀ {children : List (Bytes × Entry)},
    a ∈ (findLocalLogged path c64 children).1 →
      ∃ child ∈ children, a = .open (childPath path child.1) .read
  | (nm, e) :: rest, h => by
      have hrest : a ∈ (findLocalLogged path c64 rest).1 →
          ∃ child ∈ (nm, e) :: rest, a = .open (childPath path child.1) .read := by
        intro h'
        obtain ⟨child, hmem, ha⟩ := mem_findLocalLogged h'
        exact ⟨child, List.mem_cons_of_mem _ hmem, ha⟩
      have hthis : a = .open (childPath path nm) .read →
          ∃ child ∈ (nm, e) :: rest, a = .open (childPath path child.1) .read :=
        fun ha => ⟨(nm, e), List.mem_cons_self, ha⟩
      cases e with
      | other => exact hrest h
      | file content =>
          rw [findLocalLogged] at h
          dsimp only at h
          split at h
          · exact hrest h
          · split at h
            · rcases List.mem_cons.mp h with ha | h
              · exact hthis ha
              · exact hrest h
            · split at h
              · simp only [List.mem_cons, List.not_mem_nil, or_false, or_self] at h
                exact hthis h
              · split at h
                · simp only [List.mem_cons, List.not_mem_nil, or_false, or_self] at h
                  exact hthis h
                · simp only [List.mem_cons] at h
                  rcases h with ha | ha | h
                  · exact hthis ha
                  · exact hthis ha
                  · exact hrest h

/-- So does the listing. -/
theorem mem_dirEntriesLogged {path : Bytes} {a : Access} : ∀ {children : List (Bytes × Entry)},
    a ∈ (dirEntriesLogged path children).1 →
      ∃ child ∈ children, a = .open (childPath path child.1) .read
  | (nm, e) :: rest, h => by
      have hrest : a ∈ (dirEntriesLogged path rest).1 →
          ∃ child ∈ (nm, e) :: rest, a = .open (childPath path child.1) .read := by
        intro h'
        obtain ⟨child, hmem, ha⟩ := mem_dirEntriesLogged h'
        exact ⟨child, List.mem_cons_of_mem _ hmem, ha⟩
      have hthis : a = .open (childPath path nm) .read →
          ∃ child ∈ (nm, e) :: rest, a = .open (childPath path child.1) .read :=
        fun ha => ⟨(nm, e), List.mem_cons_self, ha⟩
      cases e with
      | other => exact hrest h
      | file content =>
          rw [dirEntriesLogged] at h
          dsimp only at h
          split at h
          · exact hrest h
          · split at h
            · exact hthis (List.mem_singleton.mp h)
            · rcases List.mem_cons.mp h with ha | h
              · exact hthis ha
              · exact hrest h

namespace DeviceDir

variable {path c64 filename : Bytes} {d : DeviceDir} {a : Access}

/-- The children of the directory have names, as the file system gives them. -/
def NamesOk (d : DeviceDir) : Prop := ∀ child ∈ d.dir.children, IsName child.1

theorem NamesOk.directChild (hnames : d.NamesOk) {child : Bytes × Entry}
    (h : child ∈ d.dir.children) : DirectChild path (childPath path child.1) :=
  ⟨child.1, hnames child h, Or.inl rfl⟩

theorem NamesOk.findLocalLogged (hnames : d.NamesOk)
    (ha : a ∈ (findLocalLogged path c64 d.dir.children).1) : DirectChild path a.path := by
  obtain ⟨child, hmem, rfl⟩ := mem_findLocalLogged ha
  exact hnames.directChild hmem

theorem openReadLogged_confined (hnames : d.NamesOk)
    (ha : a ∈ (d.openReadLogged path c64).1) : DirectChild path a.path := by
  unfold openReadLogged at ha
  split at ha
  · obtain ⟨child, hmem, rfl⟩ := mem_dirEntriesLogged ha
    exact hnames.directChild hmem
  · dsimp only at ha
    split at ha
    · exact hnames.findLocalLogged ha
    · rcases List.mem_append.mp ha with ha | ha
      · exact hnames.findLocalLogged ha
      · exact hnames.findLocalLogged ha
    · rename_i name hfound
      rw [findLocalLogged_snd] at hfound
      obtain ⟨content, hmem, -⟩ := findLocal_some hfound
      have hopened : ∀ {a : Access}, a = .open (childPath path name) .read →
          DirectChild path a.path := by
        rintro a rfl
        exact hnames.directChild hmem
      split at ha
      all_goals
        rcases List.mem_append.mp ha with ha | ha
        · exact hnames.findLocalLogged ha
        · exact hopened (List.mem_singleton.mp ha)

/-- The directory has no name left for a file of this C64 name. -/
def Exhausted (dir : Dir) (c64 : Bytes) : Prop :=
  ∀ k < 100, dir.exist (pc64File (strippedFilename c64) k) = true

theorem createLocalLogged_confined {dir : Dir} (ha : a ∈ (createLocalLogged path dir c64).1) :
    DirectChild path a.path ∨ a.path = filePath path [] ∧
      createLocal dir c64 = (.error .systemCallError, dir) ∧ Exhausted dir c64 := by
  unfold createLocalLogged at ha
  cases hlocal : localEncode dir c64 with
  | none =>
      rw [hlocal] at ha
      rw [List.mem_singleton.mp ha, createLocal, hlocal]
      exact Or.inr ⟨rfl, rfl, localEncode_none hlocal⟩
  | some name =>
      rw [hlocal] at ha
      dsimp only at ha
      refine Or.inl ⟨name, (localEncode_some hlocal).1, Or.inr ?_⟩
      split at ha <;> rw [List.mem_singleton.mp ha] <;> rfl

/-- The calls of `open_write`: those of `find_local`, the removal of what it has found, those of
`create_local`, and the file it has created opened once more. -/
theorem mem_openWriteLogged (ha : a ∈ (d.openWriteLogged path c64).1) :
    a ∈ (findLocalLogged path c64 d.dir.children).1 ∨
      ∃ local_, findLocal c64 d.dir.children = .ok local_ ∧
        ((∃ name, local_ = some name ∧ a = .unlink (childPath path name)) ∨
          a ∈ (createLocalLogged path (withoutOld d.dir local_) c64).1 ∨
          ∃ name dir, createLocal (withoutOld d.dir local_) c64 = (.ok name, dir) ∧
            a = .open (filePath path name) .append) := by
  unfold openWriteLogged at ha
  simp only [findLocalLogged_snd, createLocalLogged_snd] at ha
  cases hfound : findLocal c64 d.dir.children with
  | error err =>
      rw [hfound] at ha
      exact Or.inl ha
  | ok local_ =>
      rw [hfound] at ha
      dsimp only at ha
      have hremoved : a ∈ (local_.map fun name => Access.unlink (childPath path name)).toList →
          ∃ name, local_ = some name ∧ a = .unlink (childPath path name) := by
        intro h
        rw [Option.mem_toList, Option.map_eq_some_iff] at h
        obtain ⟨name, hname, ha⟩ := h
        exact ⟨name, hname, ha.symm⟩
      cases hcreate : createLocal (withoutOld d.dir local_) c64 with
      | mk result dir =>
          rw [hcreate] at ha
          cases result with
          | error err =>
              simp only [List.mem_append] at ha
              rcases ha with (ha | ha) | ha
              · exact Or.inl ha
              · exact Or.inr ⟨local_, rfl, Or.inl (hremoved ha)⟩
              · exact Or.inr ⟨local_, rfl, Or.inr (Or.inl ha)⟩
          | ok name =>
              simp only [List.mem_append, List.mem_singleton] at ha
              rcases ha with ((ha | ha) | ha) | ha
              · exact Or.inl ha
              · exact Or.inr ⟨local_, rfl, Or.inl (hremoved ha)⟩
              · exact Or.inr ⟨local_, rfl, Or.inr (Or.inl ha)⟩
              · exact Or.inr ⟨local_, rfl, Or.inr (Or.inr ⟨name, dir, hcreate, ha⟩)⟩

theorem openWriteLogged_confined (hnames : d.NamesOk)
    (ha : a ∈ (d.openWriteLogged path c64).1) : DirectChild path a.path ∨
      a.path = filePath path [] ∧ (d.openWrite c64).1 = .error .systemCallError ∧
        Exhausted (d.openWrite c64).2.dir c64 := by
  rcases mem_openWriteLogged ha with ha | ⟨local_, hfound, ha⟩
  · exact Or.inl (hnames.findLocalLogged ha)
  · rcases ha with ⟨name, rfl, rfl⟩ | ha | ⟨name, dir, hcreate, rfl⟩
    · obtain ⟨content, hmem, -⟩ := findLocal_some hfound
      exact Or.inl (hnames.directChild hmem)
    · rcases createLocalLogged_confined ha with hchild | ⟨hpath, hcreate, hfull⟩
      · exact Or.inl hchild
      · rw [openWrite_eq hfound, hcreate]
        exact Or.inr ⟨hpath, rfl, hfull⟩
    · have hlocal := (createLocal_eq_ok hcreate).1
      exact Or.inl ⟨name, (localEncode_some hlocal).1, Or.inr rfl⟩

/-! ## The other files -/

/-- A file that is created takes no other file's place, also when its creation raises. -/
theorem createLocal_keeps {dir : Dir} {nm : Bytes} {e : Entry} (h : (nm, e) ∈ dir.children) :
    (nm, e) ∈ (createLocal dir c64).2.children := by
  unfold createLocal
  cases hlocal : localEncode dir c64 with
  | none => exact h
  | some name =>
      have hfree := (localEncode_some hlocal).2
      have hne : nm ≠ name := by
        rintro rfl
        rw [Dir.exist_iff.mpr ⟨e, h⟩] at hfree
        cases hfree
      have hempty : (nm, e) ∈ (dir.write name []).children := Dir.mem_write.mpr (Or.inr ⟨hne, h⟩)
      dsimp only
      split
      · exact hempty
      · exact Dir.mem_write.mpr (Or.inr ⟨hne, hempty⟩)

/-- **Saving** leaves every child but the one `find_local` has found. -/
theorem openWrite_keeps {nm : Bytes} {e : Entry} (h : (nm, e) ∈ d.dir.children)
    (hne : findLocal c64 d.dir.children ≠ .ok (some nm)) :
    (nm, e) ∈ (d.openWrite c64).2.dir.children := by
  cases hfound : findLocal c64 d.dir.children with
  | error err =>
      rw [openWrite, hfound]
      exact h
  | ok local_ =>
      rw [hfound] at hne
      have hold : (nm, e) ∈ (withoutOld d.dir local_).children :=
        mem_withoutOld.mpr ⟨fun heq => hne (congrArg Except.ok heq), h⟩
      have hkept : (nm, e) ∈ (createLocal (withoutOld d.dir local_) c64).2.children :=
        createLocal_keeps hold
      rw [openWrite_eq hfound]
      generalize createLocal (withoutOld d.dir local_) c64 = r at hkept ⊢
      rcases r with ⟨err | name, dir⟩
      · exact hkept
      · exact hkept

/-- A file with another C64 name is not the one that is found. -/
theorem findLocal_ne_of_name {nm content : Bytes} (h : (nm, .file content) ∈ d.dir.children)
    (hname : pc64C64Filename content ≠ .ok c64) :
    findLocal c64 d.dir.children ≠ .ok (some nm) := by
  intro hfound
  obtain ⟨content', hmem, hc64⟩ := findLocal_some hfound
  obtain rfl := Entry.file.inj (Dir.eq_of_mem h hmem)
  exact hname hc64

/-- What `open` leaves alone, whether it returns or raises. -/
structure Confined (path : Bytes) (d : DeviceDir) (filename : Bytes) : Prop where
  result : ∀ mode, (d.openLogged path filename mode).2 = d.openFile filename mode
  /-- no path leads out of the directory; that of the directory itself is opened when there is no
  name left, which raises -/
  paths : ∀ mode, ∀ a ∈ (d.openLogged path filename mode).1, DirectChild path a.path ∨
    a.path = filePath path [] ∧ mode = .write ∧
      (d.openFile filename mode).1 = .error .systemCallError ∧
      Exhausted (d.openFile filename mode).2.dir (decode filename)
  kept : ∀ nm e, (nm, e) ∈ d.dir.children →
    findLocal (decode filename) d.dir.children ≠ .ok (some nm) →
    (nm, e) ∈ (d.openFile filename .write).2.dir.children
  otherNames : ∀ nm content, (nm, .file content) ∈ d.dir.children →
    pc64C64Filename content ≠ .ok (decode filename) →
    (nm, .file content) ∈ (d.openFile filename .write).2.dir.children

/-- **Saving touches only its own file** and never leaves the device's directory. -/
theorem open_confined (path : Bytes) {d : DeviceDir} (hnames : d.NamesOk) (filename : Bytes) :
    Confined path d filename where
  result := openLogged_snd path d filename
  paths := by
    intro mode a ha
    cases mode with
    | read =>
        have hlog : (d.openLogged path filename .read).1
            = (d.openReadLogged path (decode filename)).1 := by
          unfold openLogged
          dsimp only
          split <;> rfl
        rw [hlog] at ha
        exact Or.inl (openReadLogged_confined hnames ha)
    | write =>
        rcases openWriteLogged_confined hnames ha with hchild | ⟨hpath, hraises, hfull⟩
        · exact Or.inl hchild
        · exact Or.inr ⟨hpath, rfl, hraises, hfull⟩
  kept := fun _ _ h hne => openWrite_keeps h hne
  otherNames := fun _ _ h hname => openWrite_keeps h (findLocal_ne_of_name h hname)

/-! ## A name that looks like a path -/

/-- A directory with the file "A!", under the name that "A" would have. -/
def otherFile : DeviceDir where
  dir := ⟨[(ascii "a.p00", .file (pc64Header (ascii "A!") ++ [1]))], fun _ _ => 0, by simp⟩
  file := .unset

theorem otherFile_names : otherFile.NamesOk := by
  intro child hchild
  rw [List.mem_singleton.mp hchild]
  exact ⟨by decide, by decide, by decide, by decide, by decide⟩

/-- "../A" is saved beside it. -/
theorem open_confined_dotdot : Confined (ascii "/d") otherFile (ascii "%2e%2e%2fA") :=
  open_confined (ascii "/d") otherFile_names (ascii "%2e%2e%2fA")

end DeviceDir

end C64Iec.Server
