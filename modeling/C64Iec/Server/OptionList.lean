import C64Iec.Server.Request

set_option autoImplicit false

/-! # Which requests can be parsed

`cstring` gives `nil` where only NULs are left, and `packet_rrq` and `packet_wrq` ask every string
for its size. `parseRequest_eq` says when that goes well, and what the options are then: the
request's strings, read in order, are the file name, names of modes, and keys each followed by a
value.
-/

namespace C64Iec.Server

open Lib Tftp

/-- Keys with their values among the strings behind the file name. The name of a mode stands
alone; a key at the end lacks its value. -/
def optionPairs : List Bytes → Option (List (Bytes × Bytes))
  | [] => some []
  | [key] => if isMode key then some [] else none
  | key :: value :: rest =>
      if isMode key then optionPairs (value :: rest)
      else (optionPairs rest).map ((key, value) :: ·)

/-- Of what is left of a packet. -/
def restPairs (rest : Bytes) : Option (List (Bytes × Bytes)) :=
  if rest = [] then some []
  else if (strings rest).getLast? = some [] then none
  else optionPairs (strings rest)

/-- The options of a request. -/
def requestPairs (data : Bytes) : Option (List (Bytes × Bytes)) :=
  if (strings (data.drop FILEPOS)).getLast? = some [] then none
  else optionPairs (strings (data.drop FILEPOS)).tail

/-- The file name of a request. -/
def requestName (data : Bytes) : Bytes := untilNul (data.drop FILEPOS)

/-! ## One string -/

/-- What is left of a packet behind its first string. -/
def behind (rest : Bytes) : Bytes := rest.drop ((untilNul rest).length + 1)

theorem strings_behind (rest : Bytes) :
    strings rest = untilNul rest :: if behind rest = [] then [] else strings (behind rest) :=
  strings_eq rest

/-- A string that is asked for its size. -/
theorem cstring_size (data : Bytes) (offset : Nat) :
    (cstring data offset >>= sizeOrRaise) =
      if ∀ c ∈ data.drop offset, c = 0 then .error .noMethodError
      else .ok (untilNul (data.drop offset)) := by
  simp only [cstring, bind, Except.bind]
  by_cases hlen : data.length < offset
  · have hnil : data.drop offset = [] := List.drop_of_length_le (Nat.le_of_lt hlen)
    simp [hlen, hnil]
  · rw [if_neg hlen]
    by_cases hall : ∀ c ∈ data.drop offset, c = 0
    · have hall' : (data.drop offset).all (· = 0) = true := by simpa using hall
      rw [if_pos hall, if_pos hall']
      rfl
    · have hall' : ¬(data.drop offset).all (· = 0) = true := by simpa using hall
      rw [if_neg hall, if_neg hall']
      rfl

section RestPairs

variable {rest : Bytes}

theorem restPairs_of_nul (hne : rest ≠ []) (h : ∀ c ∈ rest, c = 0) : restPairs rest = none := by
  rw [restPairs, if_neg hne, if_pos (getLast?_strings_of_all_nul h)]

theorem untilNul_ne_nil (h : ¬∀ c ∈ rest, c = 0) (hnil : behind rest = []) : untilNul rest ≠ [] :=
  fun h0 => h (all_nul_of_untilNul h0 hnil)

theorem ne_nil_of_not_nul (h : ¬∀ c ∈ rest, c = 0) : rest ≠ [] := by
  rintro rfl
  simp at h

/-- The last string is that of what is left behind the first one. -/
theorem getLast?_strings (hnil : behind rest ≠ []) :
    (strings rest).getLast? = (strings (behind rest)).getLast? := by
  rw [strings_behind rest, if_neg hnil, strings_behind (behind rest)]
  rfl

/-- The name of a mode is passed over. -/
theorem restPairs_mode (h : ¬∀ c ∈ rest, c = 0) (hmode : isMode (untilNul rest) = true) :
    restPairs rest = restPairs (behind rest) := by
  rw [restPairs, if_neg (ne_nil_of_not_nul h)]
  by_cases hnil : behind rest = []
  · have hstrings : strings rest = [untilNul rest] := by rw [strings_behind, if_pos hnil]
    have hlast : ¬(strings rest).getLast? = some [] := by
      rw [hstrings]
      simpa using untilNul_ne_nil h hnil
    rw [if_neg hlast, hstrings, optionPairs, if_pos hmode, hnil, restPairs, if_pos rfl]
  · rw [getLast?_strings hnil, restPairs, if_neg hnil]
    have hpairs : optionPairs (strings rest) = optionPairs (strings (behind rest)) := by
      rw [strings_behind rest, if_neg hnil, strings_behind (behind rest), optionPairs,
        if_pos hmode]
    rw [hpairs]

/-- A key needs a value. -/
theorem restPairs_key_nul (h : ¬∀ c ∈ rest, c = 0) (hmode : ¬isMode (untilNul rest) = true)
    (hnul : ∀ c ∈ behind rest, c = 0) : restPairs rest = none := by
  rw [restPairs, if_neg (ne_nil_of_not_nul h)]
  by_cases hnil : behind rest = []
  · have hstrings : strings rest = [untilNul rest] := by rw [strings_behind, if_pos hnil]
    rw [hstrings, optionPairs, if_neg hmode, ite_self]
  · rw [getLast?_strings hnil, getLast?_strings_of_all_nul hnul, if_pos rfl]

/-- A key with its value. -/
theorem restPairs_key (h : ¬∀ c ∈ rest, c = 0) (hmode : ¬isMode (untilNul rest) = true)
    (hnul : ¬∀ c ∈ behind rest, c = 0) :
    restPairs rest = (restPairs (behind (behind rest))).map
      ((untilNul rest, untilNul (behind rest)) :: ·) := by
  have hne := ne_nil_of_not_nul hnul
  have hpairs : optionPairs (strings rest) = (optionPairs
      (if behind (behind rest) = [] then [] else strings (behind (behind rest)))).map
      ((untilNul rest, untilNul (behind rest)) :: ·) := by
    rw [strings_behind rest, if_neg hne, strings_behind (behind rest), optionPairs, if_neg hmode]
  rw [restPairs, if_neg (ne_nil_of_not_nul h), getLast?_strings hne, hpairs]
  by_cases hnil : behind (behind rest) = []
  · have hlast : ¬(strings (behind rest)).getLast? = some [] := by
      rw [strings_behind, if_pos hnil]
      simpa using untilNul_ne_nil hnul hnil
    rw [if_neg hlast, if_pos hnil, hnil, restPairs, if_pos rfl]
    rfl
  · rw [getLast?_strings hnil, if_neg hnil, restPairs, if_neg hnil]
    split <;> rfl

end RestPairs

/-! ## The loop -/

/-- What becomes of the options: the pairs are set in order. -/
def setPairs (options : List (Bytes × Bytes)) :
    Option (List (Bytes × Bytes)) → Except RubyError (List (Bytes × Bytes))
  | none => .error .noMethodError
  | some pairs => .ok (pairs.foldl (fun options o => setOption options o.1 o.2) options)

theorem setPairs_cons (options : List (Bytes × Bytes)) (o : Bytes × Bytes)
    (pairs : Option (List (Bytes × Bytes))) :
    setPairs options (pairs.map (o :: ·)) = setPairs (setOption options o.1 o.2) pairs := by
  cases pairs <;> rfl

/-- One turn of the loop. -/
theorem optionsLoop_succ {data : Bytes} {offset : Nat} (hlt : offset < data.length) (fuel : Nat)
    (mode : Bytes) (options : List (Bytes × Bytes)) :
    optionsLoop data (fuel + 1) offset mode options = (cstring data offset >>= sizeOrRaise) >>=
      fun key =>
        if isMode key = true then optionsLoop data fuel (offset + (key.length + 1)) key options
        else (cstring data (offset + (key.length + 1)) >>= sizeOrRaise) >>= fun value =>
          optionsLoop data fuel (offset + (key.length + 1) + (value.length + 1)) mode
            (setOption options key value) := by
  rw [optionsLoop, if_pos hlt]
  simp only [bind_assoc]

theorem drop_behind {data rest : Bytes} {offset : Nat} (h : data.drop offset = rest) :
    data.drop (offset + ((untilNul rest).length + 1)) = behind rest := by
  rw [← List.drop_drop, h, behind]

/-- **The loop of `tftp_options`** sets the pairs of what is left, and raises when they do not
come in pairs. The induction is on the fuel; a turn reads one key. -/
theorem optionsLoop_eq (data : Bytes) : ∀ (fuel offset : Nat) (mode : Bytes)
    (options : List (Bytes × Bytes)), data.length - offset ≤ fuel →
    (optionsLoop data fuel offset mode options).map Prod.snd =
      setPairs options (restPairs (data.drop offset))
  | 0, offset, mode, options, hfuel => by
      have hnil : data.drop offset = [] := List.drop_of_length_le (by omega)
      rw [hnil]
      rfl
  | fuel + 1, offset, mode, options, hfuel => by
      by_cases hlt : offset < data.length
      · rw [optionsLoop_succ hlt, cstring_size]
        obtain ⟨rest, hrest⟩ : ∃ rest, data.drop offset = rest := ⟨_, rfl⟩
        have hne : rest ≠ [] := by
          rw [← hrest, ne_eq, List.drop_eq_nil_iff]
          omega
        rw [hrest]
        -- only NULs are left: `cstring` gives `nil`
        by_cases hnul : ∀ c ∈ rest, c = 0
        · rw [restPairs_of_nul hne hnul, if_pos hnul]
          rfl
        · have hbehind := drop_behind hrest
          rw [if_neg hnul]
          simp only [bind, Except.bind]
          -- a mode stands alone, any other string is a key and takes the next as its value
          by_cases hmode : isMode (untilNul rest) = true
          · rw [if_pos hmode, restPairs_mode hnul hmode, ← hbehind]
            exact optionsLoop_eq data fuel _ _ _ (by omega)
          · have hvalue := cstring_size data (offset + ((untilNul rest).length + 1))
            simp only [bind, Except.bind, hbehind] at hvalue
            rw [if_neg hmode, hvalue]
            by_cases hnul' : ∀ c ∈ behind rest, c = 0
            · rw [restPairs_key_nul hnul hmode hnul', if_pos hnul']
              rfl
            · rw [restPairs_key hnul hmode hnul', setPairs_cons, if_neg hnul', ← drop_behind hbehind]
              exact optionsLoop_eq data fuel _ _ _ (by omega)
      · have hnil : data.drop offset = [] := List.drop_of_length_le (by omega)
        rw [optionsLoop, if_neg hlt, hnil]
        rfl

/-! ## The request -/

/-- What `parse_request` makes of a request with the options `pairs`. -/
def parsed (t : Tftp) (data mode : Bytes) (pairs : List (Bytes × Bytes)) : Tftp :=
  { t with
    deviceNum := (splitDevice (requestName data)).1
    filename := (splitDevice (requestName data)).2
    mode := mode
    options := pairs.foldl (fun options o => setOption options o.1 o.2) []
    device :=
      if (t.devices (splitDevice (requestName data)).1).isSome then
        some (splitDevice (requestName data)).1
      else none }

theorem requestPairs_of_nul {data : Bytes} (h : ∀ c ∈ data.drop FILEPOS, c = 0) :
    requestPairs data = none := by
  rw [requestPairs, if_pos (getLast?_strings_of_all_nul h)]

/-- The options are what the strings behind the name give. -/
theorem requestPairs_of_name {data : Bytes} (h : ¬∀ c ∈ data.drop FILEPOS, c = 0) :
    requestPairs data = restPairs (behind (data.drop FILEPOS)) := by
  rw [requestPairs]
  generalize data.drop FILEPOS = rest at h
  by_cases hnil : behind rest = []
  · have hlast : ¬(strings rest).getLast? = some [] := by
      rw [strings_behind, if_pos hnil]
      simpa using untilNul_ne_nil h hnil
    rw [if_neg hlast, strings_behind, if_pos hnil, hnil, restPairs, if_pos rfl]
    rfl
  · rw [getLast?_strings hnil, strings_behind rest, if_neg hnil, restPairs, if_neg hnil]
    rfl

/-- **A request is parsed** when its options come in pairs. -/
theorem parseRequest_cases (t : Tftp) (data : Bytes) :
    (∃ pairs mode, requestPairs data = some pairs ∧
        t.parseRequest data = .ok (parsed t data mode pairs)) ∨
      requestPairs data = none ∧ t.parseRequest data = .error .noMethodError := by
  have hbind : t.parseRequest data = (cstring data FILEPOS >>= sizeOrRaise) >>= fun filename => do
      let t ← tftpOptions
        { t with deviceNum := (splitDevice filename).1, filename := (splitDevice filename).2 } data
        (FILEPOS + filename.length + 1)
      return { t with
        device := if (t.devices t.deviceNum).isSome then some t.deviceNum else none } := by
    rw [parseRequest, bind_assoc]
    refine bind_congr fun filename => bind_congr fun filename => ?_
    unfold splitDevice
    cases devicePrefix true filename <;> rfl
  rw [hbind, cstring_size]
  by_cases hnul : ∀ c ∈ data.drop FILEPOS, c = 0
  · rw [if_pos hnul]
    exact Or.inr ⟨requestPairs_of_nul hnul, rfl⟩
  · rw [if_neg hnul, requestPairs_of_name hnul]
    have hloop := optionsLoop_eq data data.length (FILEPOS + (requestName data).length + 1) t.mode []
      (Nat.sub_le _ _)
    rw [Nat.add_assoc, requestName, drop_behind rfl, ← Nat.add_assoc] at hloop
    simp only [bind, Except.bind, tftpOptions, pure, Except.pure]
    -- the loop raises exactly when the strings do not pair up
    cases hpairs : restPairs (behind (data.drop FILEPOS)) with
    | none =>
        rw [hpairs] at hloop
        generalize optionsLoop _ _ _ _ _ = r at hloop
        rcases r with e | ⟨mode, options⟩
        · cases hloop
          exact Or.inr ⟨rfl, rfl⟩
        · cases hloop
    | some pairs =>
        rw [hpairs] at hloop
        generalize optionsLoop _ _ _ _ _ = r at hloop
        rcases r with e | ⟨mode, options⟩
        · cases hloop
        · cases hloop
          exact Or.inl ⟨pairs, mode, rfl, rfl⟩

end C64Iec.Server
