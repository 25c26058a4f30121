import C64Iec.Server.Tftp

set_option autoImplicit false

/-! # Parsing requests

A request in TFTP form is the opcode, the file name, the mode and any number of option pairs,
each string ended by a NUL. `parseRequest_serialized` says what `packet_rrq` and `packet_wrq`
make of one: the name split at the device prefix, the mode, and the options in order.
-/

namespace C64Iec.Server

open Lib Tftp

/-! ## Strings of a packet -/

/-- A string followed by its NUL is read as it is, if it is not empty or something other than
NULs comes behind it. -/
theorem cstring_of_drop {data s rest : Bytes} {offset : Nat}
    (h : data.drop offset = s ++ 0 :: rest) (hs : ∀ c ∈ s, c ≠ 0)
    (hne : s ≠ [] ∨ ∃ c ∈ rest, c ≠ 0) : cstring data offset = .ok (some s) := by
  have hlen : ¬data.length < offset := by
    intro hlt
    rw [List.drop_of_length_le (Nat.le_of_lt hlt)] at h
    exact absurd h.symm (by simp)
  have hall : ¬((s ++ 0 :: rest).all (· = 0)) = true := by
    rw [List.all_eq_true]
    intro hall
    have hzero : ∀ c ∈ s ++ 0 :: rest, c = 0 := fun c hc => by simpa using hall c hc
    rcases hne with hne | ⟨c, hc, hc0⟩
    · obtain ⟨c, rest', rfl⟩ := List.exists_cons_of_ne_nil hne
      exact hs c (by simp) (hzero c (by simp))
    · exact hc0 (hzero c (by simp [hc]))
  rw [cstring, if_neg hlen, h, if_neg hall, untilNul_append_nul hs]

theorem drop_of_drop_append {data s rest : Bytes} {offset : Nat}
    (h : data.drop offset = s ++ 0 :: rest) : data.drop (offset + (s.length + 1)) = rest := by
  rw [← List.drop_drop, h, show s ++ 0 :: rest = (s ++ [0]) ++ rest by simp]
  exact List.drop_left' (by simp)

/-! ## The option list -/

/-- The options of a request: non-empty strings without NUL, under different keys, none of
which is the name of a mode. -/
structure OptionsOk (options : List (Bytes × Bytes)) : Prop where
  keyNul : ∀ o ∈ options, ∀ c ∈ o.1, c ≠ 0
  valueNul : ∀ o ∈ options, ∀ c ∈ o.2, c ≠ 0
  keyNe : ∀ o ∈ options, o.1 ≠ []
  valueNe : ∀ o ∈ options, o.2 ≠ []
  keyMode : ∀ o ∈ options, isMode o.1 = false
  nodup : (options.map Prod.fst).Nodup

theorem OptionsOk.tail {o : Bytes × Bytes} {options : List (Bytes × Bytes)}
    (h : OptionsOk (o :: options)) : OptionsOk options where
  keyNul := fun p hp => h.keyNul p (by simp [hp])
  valueNul := fun p hp => h.valueNul p (by simp [hp])
  keyNe := fun p hp => h.keyNe p (by simp [hp])
  valueNe := fun p hp => h.valueNe p (by simp [hp])
  keyMode := fun p hp => h.keyMode p (by simp [hp])
  nodup := (List.nodup_cons.mp (by simpa using h.nodup)).2

theorem setOption_of_not_mem {options : List (Bytes × Bytes)} {key : Bytes} (value : Bytes)
    (h : key ∉ options.map Prod.fst) : setOption options key value = options ++ [(key, value)] := by
  have hany : ¬(options.any (·.1 = key)) = true := by
    rw [List.any_eq_true]
    rintro ⟨o, ho, hk⟩
    exact h (List.mem_map.mpr ⟨o, ho, by simpa using hk⟩)
  rw [setOption, if_neg hany]

/-- The loop of `tftp_options` on the pairs still to come. The induction is on the pairs; the
options read so far have other keys. -/
theorem optionsLoop_optionBytes (data mode : Bytes) :
    ∀ (options seen : List (Bytes × Bytes)) (fuel offset : Nat), OptionsOk options →
      (∀ o ∈ options, o.1 ∉ seen.map Prod.fst) → options.length < fuel → offset ≤ data.length →
      data.drop offset = optionBytes options →
      optionsLoop data fuel offset mode seen = .ok (mode, seen ++ options)
  | [], seen, fuel + 1, offset, _, _, _, hle, hdrop => by
      have hge : ¬offset < data.length := by
        have := congrArg List.length hdrop
        simp only [List.length_drop, optionBytes, List.flatMap_nil, List.length_nil] at this
        omega
      rw [optionsLoop, if_neg hge, List.append_nil]
  | o :: options, seen, fuel + 1, offset, hok, hseen, hfuel, hle, hdrop => by
      obtain ⟨key, value⟩ := o
      -- the first pair and what is behind it, at their offsets
      have hkey : data.drop offset = key ++ 0 :: (value ++ 0 :: optionBytes options) := by
        rw [hdrop]
        simp [optionBytes]
      have hvalue := drop_of_drop_append hkey
      have hrest := drop_of_drop_append hvalue
      have hlt : offset < data.length := by
        have := congrArg List.length hkey
        simp only [List.length_drop, List.length_append, List.length_cons] at this
        omega
      have hle' : offset + (key.length + 1) + (value.length + 1) ≤ data.length := by
        have := congrArg List.length hkey
        simp only [List.length_drop, List.length_append, List.length_cons] at this
        omega
      have hc1 := cstring_of_drop hkey (hok.keyNul (key, value) (by simp))
        (Or.inl (hok.keyNe (key, value) (by simp)))
      have hc2 := cstring_of_drop hvalue (hok.valueNul (key, value) (by simp))
        (Or.inl (hok.valueNe (key, value) (by simp)))
      -- the key is new, so the pair goes to the end of the options read so far
      have hnew : key ∉ seen.map Prod.fst := hseen (key, value) (by simp)
      have hnd := List.nodup_cons.mp (by simpa using hok.nodup :
        (key :: options.map Prod.fst).Nodup)
      have ih := optionsLoop_optionBytes data mode options (seen ++ [(key, value)]) fuel _ hok.tail
        (by
          intro p hp hmem
          rw [List.map_append, List.mem_append] at hmem
          rcases hmem with hmem | hmem
          · exact hseen p (by simp [hp]) hmem
          · have hpk : p.1 = key := by simpa using hmem
            exact hnd.1 (hpk ▸ List.mem_map_of_mem hp))
        (by simpa using hfuel) hle' hrest
      have hmode : ¬isMode key = true := by simp [hok.keyMode (key, value) (by simp)]
      rw [optionsLoop, if_pos hlt, hc1]
      simp only [sizeOrRaise, bind, Except.bind, hmode, hc2, if_false, Bool.false_eq_true]
      rw [setOption_of_not_mem value hnew, ih, List.append_assoc, List.singleton_append]

/-! ## The request -/

/-- The device and the file name a name is split into. -/
def splitDevice (name : Bytes) : Nat × Bytes :=
  match devicePrefix true name with
  | some (c, rest) => (deviceNumber c, rest)
  | none => (8, name)

/-- A request as it is sent: opcode, name, mode and options. -/
def serialize (opcode : Nat) (name mode : Bytes) (options : List (Bytes × Bytes)) : Bytes :=
  beBytes opcode ++ (name ++ [0]) ++ (mode ++ [0]) ++ optionBytes options

theorem isMode_iff {mode : Bytes} : isMode mode = true ↔ mode = ascii "octet" ∨
    mode = ascii "netascii" := by
  simp [isMode]

/-- **What a request is parsed to.** -/
theorem parseRequest_serialized (t : Tftp) (opcode : Nat) {name mode : Bytes}
    {options : List (Bytes × Bytes)} (hname : ∀ c ∈ name, c ≠ 0) (hmode : isMode mode = true)
    (hok : OptionsOk options) :
    t.parseRequest (serialize opcode name mode options) =
      .ok { t with
        deviceNum := (splitDevice name).1
        filename := (splitDevice name).2
        mode := mode
        options := options
        device :=
          if (t.devices (splitDevice name).1).isSome then some (splitDevice name).1 else none } := by
  set data := serialize opcode name mode options with hdata
  have hmodeNul : ∀ c ∈ mode, c ≠ 0 := by
    rcases isMode_iff.mp hmode with rfl | rfl <;> decide
  have hmodeNe : mode ≠ [] := by
    rcases isMode_iff.mp hmode with rfl | rfl <;> decide
  -- what is read at each of the three offsets: the name, the mode, the options
  have hd1 : data.drop FILEPOS = name ++ 0 :: (mode ++ 0 :: optionBytes options) := by
    rw [hdata, serialize, List.append_assoc, List.append_assoc, List.append_assoc]
    rw [show FILEPOS = (beBytes opcode).length from rfl, List.drop_left]
    simp
  have hd2 := drop_of_drop_append hd1
  have hd3 := drop_of_drop_append hd2
  have hlen : data.length = 2 + (name.length + 1) + (mode.length + 1)
      + (optionBytes options).length := by
    rw [hdata, serialize]
    simp
    omega
  have hc1 : cstring data FILEPOS = .ok (some name) := by
    refine cstring_of_drop hd1 hname (Or.inr ?_)
    obtain ⟨c, rest, hc⟩ := List.exists_cons_of_ne_nil hmodeNe
    exact ⟨c, by simp [hc], hmodeNul c (by simp [hc])⟩
  have hc2 := cstring_of_drop hd2 hmodeNul (Or.inl hmodeNe)
  -- the length of the request is fuel enough for its options
  have hopts : options.length ≤ (optionBytes options).length := by
    clear * -
    induction options with
    | nil => simp
    | cons o options ih =>
        simp only [optionBytes, List.flatMap_cons, List.length_append, List.length_cons] at ih ⊢
        omega
  obtain ⟨fuel, hfuel⟩ : ∃ fuel, data.length = fuel + 1 := ⟨data.length - 1, by omega⟩
  have hloop : optionsLoop data data.length (FILEPOS + name.length + 1) t.mode []
      = .ok (mode, options) := by
    have hpos : FILEPOS + name.length + 1 < data.length := by
      simp only [FILEPOS]
      omega
    have hc2' : cstring data (FILEPOS + name.length + 1) = .ok (some mode) := hc2
    have hstep := optionsLoop_optionBytes data mode options [] fuel
      (FILEPOS + name.length + 1 + (mode.length + 1)) hok (by simp) (by omega)
      (by simp only [FILEPOS]; omega) hd3
    rw [hfuel, optionsLoop, if_pos hpos, hc2']
    simp only [sizeOrRaise, bind, Except.bind, hmode, if_true]
    rw [hstep, List.nil_append]
  rw [parseRequest, hc1]
  simp only [sizeOrRaise, bind, Except.bind, tftpOptions, pure, Except.pure]
  rw [hloop]
  rfl

end C64Iec.Server
