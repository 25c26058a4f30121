import C64Iec.Lib.Buffer

set_option autoImplicit false

/-! # Lists of options

An option is a code, the length of its value in one byte, and the value. `tlv` strings options
together, `readOptions` is a reader of such a string up to the code `255`, with `0` for padding, and
`walk` is a loop that steps from option to option in a buffer without knowing either code. On what
`tlv` has made both see the options one after another (`readOptions_tlv`, `walk_tlv`).
-/

namespace C64Iec.Lib

/-- The options as they are transmitted. -/
def tlv : List (UInt8 × List UInt8) → List UInt8
  | [] => []
  | (code, value) :: os => code :: UInt8.ofNat value.length :: (value ++ tlv os)

@[simp] theorem tlv_nil : tlv [] = [] := rfl

theorem tlv_cons (code : UInt8) (value : List UInt8) (os : List (UInt8 × List UInt8)) :
    tlv ((code, value) :: os) = code :: UInt8.ofNat value.length :: (value ++ tlv os) := rfl

theorem toNat_length {value : List UInt8} (h : value.length < 256) :
    (UInt8.ofNat value.length).toNat = value.length := by
  rw [UInt8.toNat_ofNat']
  exact Nat.mod_eq_of_lt h

/-! ## A reader -/

/-- The options up to the code `255`. -/
def readOptions : List UInt8 → Option (List (UInt8 × List UInt8))
  | [] => none
  | [code] => if code = 255 then some [] else none
  | code :: n :: s =>
      if code = 255 then some []
      else if code = 0 then readOptions (n :: s)
      else if n.toNat ≤ s.length then
        (readOptions (s.drop n.toNat)).map ((code, s.take n.toNat) :: ·)
      else none
termination_by s => s.length
decreasing_by
  · simp
  · simp only [List.length_cons, List.length_drop]
    omega

/-- **Options are read back**, whatever stands behind their end. -/
theorem readOptions_tlv {os : List (UInt8 × List UInt8)} (rest : List UInt8)
    (h : ∀ o ∈ os, o.1 ≠ 0 ∧ o.1 ≠ 255 ∧ o.2.length < 256) :
    readOptions (tlv os ++ 255 :: rest) = some os := by
  induction os with
  | nil =>
      rw [tlv_nil, List.nil_append]
      cases rest <;> rw [readOptions, if_pos rfl]
  | cons o os ih =>
      obtain ⟨code, value⟩ := o
      obtain ⟨hzero, hend, hlen⟩ := h _ List.mem_cons_self
      have hrest := ih fun o ho => h o (List.mem_cons_of_mem _ ho)
      rw [tlv_cons, List.cons_append, List.cons_append, List.append_assoc, readOptions,
        if_neg hend, if_neg hzero, toNat_length hlen, if_pos (by simp), List.drop_left,
        List.take_left, hrest]
      rfl

/-! ## A loop over a buffer -/

variable {σ : Type*}

/-- `do { option = *ptr++; len = *ptr++; …; ptr += len; } while (ptr < stop);` -/
def walk (visit : σ → UInt8 → Nat → σ) (b : Nat → UInt8) (stop : Nat) (s : σ) (ptr : Nat) : σ :=
  let s := visit s (b ptr) (ptr + 2)
  let ptr' := ptr + 2 + (b (ptr + 1)).toNat
  if ptr' < stop then walk visit b stop s ptr' else s
termination_by stop - ptr

variable {visit : σ → UInt8 → Nat → σ} {b : Nat → UInt8} {stop : Nat}

theorem walk_eq (s : σ) (ptr : Nat) :
    walk visit b stop s ptr =
      if ptr + 2 + (b (ptr + 1)).toNat < stop then
        walk visit b stop (visit s (b ptr) (ptr + 2)) (ptr + 2 + (b (ptr + 1)).toNat)
      else visit s (b ptr) (ptr + 2) := by
  rw [walk]

/-- Nothing comes of codes that are ignored. -/
theorem walk_ignored {ptr : Nat} (hptr : ptr < stop)
    (h : ∀ q, ptr ≤ q → q < stop → ∀ s : σ, visit s (b q) (q + 2) = s) (s : σ) :
    walk visit b stop s ptr = s := by
  induction hn : stop - ptr using Nat.strong_induction_on generalizing ptr with
  | _ n ih =>
      rw [walk_eq, h ptr (Nat.le_refl _) hptr]
      split
      · rename_i hlt
        exact ih _ (by omega) hlt (fun q hq => h q (by omega)) rfl
      · rfl

/-- **The invariant rule** of the loop. -/
theorem walk_invariant {I : σ → Prop} (hvisit : ∀ s code q, I s → I (visit s code q)) {s : σ}
    (ptr : Nat) (h : I s) : I (walk visit b stop s ptr) := by
  induction hn : stop - ptr using Nat.strong_induction_on generalizing ptr s with
  | _ n ih =>
      rw [walk_eq]
      split
      · rename_i hlt
        exact ih _ (by omega) _ (hvisit _ _ _ h) rfl
      · exact hvisit _ _ _ h

/-- The first of the options in a buffer. -/
theorem cells_tlv_cons {code : UInt8} {value : List UInt8} {os : List (UInt8 × List UInt8)}
    {ptr : Nat} (hlen : value.length < 256)
    (h : cells b ptr (tlv ((code, value) :: os)).length = tlv ((code, value) :: os)) :
    b ptr = code ∧ (b (ptr + 1)).toNat = value.length ∧
      cells b (ptr + 2) value.length = value ∧
      cells b (ptr + 2 + value.length) (tlv os).length = tlv os := by
  rw [tlv_cons, List.length_cons, List.length_cons, cells_succ, cells_succ, List.length_append,
    cells_add] at h
  obtain ⟨hcode, h⟩ := List.cons.inj h
  obtain ⟨hn, h⟩ := List.cons.inj h
  obtain ⟨hvalue, hrest⟩ := List.append_inj h (cells_length _ _ _)
  exact ⟨hcode, by rw [hn, toNat_length hlen], hvalue, hrest⟩

/-- **The loop sees the options one after another**: `see` is what `visit` makes of a value that
stands in the buffer. -/
theorem walk_tlv {see : σ → UInt8 × List UInt8 → σ} {os : List (UInt8 × List UInt8)} {ptr : Nat}
    (hos : ∀ o ∈ os, o.2.length < 256)
    (hsee : ∀ o ∈ os, ∀ (s : σ) (q : Nat), cells b q o.2.length = o.2 → visit s o.1 q = see s o)
    (hb : cells b ptr (tlv os).length = tlv os) (hstop : ptr + (tlv os).length < stop) (s : σ) :
    walk visit b stop s ptr = walk visit b stop (os.foldl see s) (ptr + (tlv os).length) := by
  induction os generalizing ptr s with
  | nil => rfl
  | cons o os ih =>
      obtain ⟨code, value⟩ := o
      have hlen : value.length < 256 := hos _ List.mem_cons_self
      obtain ⟨hcode, hn, hvalue, hrest⟩ := cells_tlv_cons hlen hb
      have hsize : (tlv ((code, value) :: os)).length = 2 + value.length + (tlv os).length := by
        rw [tlv_cons, List.length_cons, List.length_cons, List.length_append]
        omega
      rw [hsize] at hstop ⊢
      rw [walk_eq, hn, if_pos (by omega), hcode, hsee _ List.mem_cons_self s _ hvalue,
        ih (fun o ho => hos o (List.mem_cons_of_mem _ ho))
          (fun o ho => hsee o (List.mem_cons_of_mem _ ho)) hrest (by omega), List.foldl_cons]
      congr 1
      omega

end C64Iec.Lib
