import C64Iec.Server.Stores
import C64Iec.System.Refused
import C64Iec.System.SaveDelivery

set_option autoImplicit false

/-! # SAVE and LOAD, one after the other

Over a network that delivers, whole transfers make the drive a map from C64 names to data: a SAVE
changes the map at its name (`SaveDelivery.stores`), a LOAD leaves it alone and puts out what the
map has under the name. So every LOAD of a sequence of transfers puts out what the last SAVE of the
name has brought (`Transfers.last_saved`), as long as each session closes its file: a transfer begins
and ends with no file open for appending, and nothing is left in Ruby's buffer.
-/

namespace C64Iec

open Lib Server Client

/-! ## What a session has stored -/

namespace SaveDelivery

/-- Device `n` keeps the map `m`, with the data of `c64` replaced by what has arrived of `d`. -/
def Replacing (n : Nat) (c64 : Bytes) (m : Bytes → Option Bytes) (d : Bytes)
    (devices : Nat → Option Device) : Prop :=
  ∃ dd st w, devices n = some (.dir dd) ∧ dd.Stores st ∧
    st.contents = Function.update m c64 (some w) ∧ (st.handle = .appending c64 ∨ w = d)

/-- What device `n` keeps, seen from the session. -/
def Keeping (n : Nat) (c64 : Bytes) (m : Bytes → Option Bytes) (d : Bytes) : Session → Prop
  | .listening devices => ∃ dd st, devices n = some (.dir dd) ∧ dd.Stores st ∧ st.contents = m
  | .active t => Replacing n c64 m d t.devices
  | .ended t => Replacing n c64 m d t.devices

variable {n : Nat} {c64 d : Bytes} {m : Bytes → Option Bytes}

theorem keeping_after {t : Server.Tftp} (h : Replacing n c64 m d t.devices) :
    Keeping n c64 m d (Session.after t) := by
  unfold Session.after
  split
  · exact h
  · exact h

/-! ## One SAVE -/

theorem requestName_requestBytes (opcode : Nat) {name : Bytes} (hname : ∀ c ∈ name, c ≠ 0) :
    requestName (requestBytes opcode name) = name := by
  have hdrop : (requestBytes opcode name).drop Server.Tftp.FILEPOS
      = name ++ 0 :: (ascii "octet" ++ [0] ++ Server.Tftp.optionBytes clientOptions) := by
    rw [requestBytes_eq, serialize]
    simp [Server.Tftp.FILEPOS, beBytes]
  rw [requestName, hdrop]
  exact untilNul_append_nul hname _

variable {myip : Bytes} {addr : Addr} {name : Bytes} {devices : Nat → Option Device}
  {dd : DeviceDir} {session : Session} {s t : SaveDelivery}

/-- The request leads to no other call than the creation of the file. -/
theorem opens_of_causes (hname : ∀ c ∈ name, c ≠ 0) {op : Device.Op}
    (h : Causes (requestBytes TFTP_WRQ name) n op) :
    op = .openFile (splitDevice name).2 .write := by
  have hop : opcode (requestBytes TFTP_WRQ name) = TFTP_WRQ := by
    rw [requestBytes_eq]
    exact Server.Tftp.opcode_of_uint16 (Server.Tftp.uint16_serialize _ _ _ _)
  have hfile : requestFile (requestBytes TFTP_WRQ name) = (splitDevice name).2 := by
    rw [requestFile, requestName_requestBytes _ hname]
  cases h with
  | rrq h _ => exact absurd (hop.symm.trans h) (by decide)
  | wrq _ _ => rw [hfile]
  | data h => exact absurd (hop.symm.trans h) (by decide)
  | read h =>
      rcases h with h | h
      · exact absurd (hop.symm.trans h) (by decide)
      · exact absurd (hop.symm.trans h) (by decide)
  | close h =>
      rcases h with h | h
      · exact absurd (hop.symm.trans h) (by decide)
      · exact absurd (hop.symm.trans h) (by decide)

/-- **The request** creates the file. -/
theorem keeping_request (hc : C64Name (decode (splitDevice name).2))
    (hkeep : Keepable (decode (splitDevice name).2)) (hname : ∀ c ∈ name, c ≠ 0)
    (hlen : name.length ≤ NAME_LIMIT) (htakes : Server.Tftp.Takes devices name n dd)
    (hkeeping : Keeping n (decode (splitDevice name).2) m d (.listening devices))
    (hrecv : (Session.listening devices).receive addr (requestBytes TFTP_WRQ name) = .ok session) :
    Keeping n (decode (splitDevice name).2) m d session := by
  obtain ⟨dd₀, st, hdev, hst, rfl⟩ := hkeeping
  obtain ⟨t₀, nm, hrecv₀, hput, -, -⟩ := Session.receive_wrq htakes hname hlen addr d
  obtain rfl : .active t₀ = session := Except.ok.inj (hrecv₀.symm.trans hrecv)
  obtain ⟨t', hdisp, hafter⟩ := bind_eq_ok.mp hrecv
  rw [recvfrom_requestBytes _ hlen] at hdisp
  have hsame : Session.after t' = .active t₀ := Except.ok.inj hafter
  obtain rfl : t' = t₀ := by
    unfold Session.after at hsame
    split at hsame
    · exact Session.active.inj hsame
    · cases hsame
  obtain ⟨ops, dev', hdev', hcauses, hops⟩ :=
    (Server.Tftp.dispatch_performed hdisp).device (show _ = some (.dir dd₀) from hdev)
  obtain ⟨dd', st', rfl, hst', heq⟩ := Device.performs_creates hc hkeep hops hst
    fun op hop => opens_of_causes hname (hcauses op hop)
  rcases heq with rfl | rfl
  · -- the file is the one that is open already
    obtain ⟨dd'', hdev'', hfile, hstored⟩ := hput.file
    obtain rfl : dd' = dd'' := Device.dir.inj (Option.some.inj (hdev'.symm.trans hdev''))
    obtain ⟨hhandle, hw⟩ := hst'.of_appending hc hkeep hfile hstored.lookup
    refine ⟨dd', st', [], hdev', hst', ?_, Or.inl hhandle⟩
    rw [← hw, Function.update_eq_self]
  · exact ⟨dd', _, [], hdev', hst', rfl, Or.inl rfl⟩

/-- **A block** is appended. -/
theorem keeping_data {k : Nat} {nm : Bytes} {tf : Server.Tftp} (hc : C64Name c64)
    (hkeep : Keepable c64) (hk : k ≤ d.length / 256)
    (hput : Server.Tftp.Putting n c64 (· <+: d) dd.dir nm (d.take (256 * k)) k tf)
    (hkeeping : Keeping n c64 m d (.active tf))
    (hrecv : (Session.active tf).receive addr (packetBytes TFTP_DATA (k + 1) (block 256 d k))
      = .ok session) : Keeping n c64 m d session := by
  obtain ⟨dd₀, st, w, hdev, hst, hcontents, -⟩ := hkeeping
  obtain ⟨dd₁, hdev₁, hfile, hstored⟩ := hput.file
  obtain rfl : dd₀ = dd₁ := Device.dir.inj (Option.some.inj (hdev.symm.trans hdev₁))
  obtain ⟨hhandle, hw⟩ := hst.of_appending hc hkeep hfile hstored.lookup
  obtain ⟨t', hdisp, hafter⟩ := bind_eq_ok.mp hrecv
  obtain rfl : Session.after t' = session := Except.ok.inj hafter
  rw [recvfrom_packetBytes _ _ (block_length_le 256 d k), Server.Tftp.dispatch_data] at hdisp
  obtain ⟨n', dev, dev', hdevice, hdev', hwrite, hend⟩ := Server.Tftp.packetData_eq_ok hdisp
  obtain rfl : n' = n := Option.some.inj (hdevice.symm.trans hput.device)
  obtain rfl : .dir dd₀ = dev := Option.some.inj (hdev.symm.trans hdev')
  rw [Server.Tftp.payload_packetBytes] at hwrite
  obtain ⟨dd', rfl, hturn⟩ := Device.perform_dir hwrite
  -- the file that is written to is the one of the name
  have happend : ∃ st', dd'.Stores st' ∧ st'.handle = .appending c64 ∧
      st'.contents = Function.update m c64 (some (d.take (256 * (k + 1)))) := by
    cases hturn with
    | append hfile' hmem =>
        obtain ⟨st', hstep, hst'⟩ := DirTurn.stores_append hst hfile' hmem
        cases hstep with
        | append _ hhandle' hcontents' =>
            obtain rfl := FileHandle.appending.inj (hhandle.symm.trans hhandle')
            obtain rfl := Option.some.inj (hw.symm.trans hcontents')
            refine ⟨_, hst', hhandle, ?_⟩
            rw [take_append_block, hcontents, Function.update_idem]
    | overwrite hfile' => cases hfile.symm.trans hfile'
  obtain ⟨st', hst', hhandle', hcontents'⟩ := happend
  refine keeping_after ?_
  rcases hend with heq | ⟨dev'', hshort, hclose, heq⟩
  · rw [Replacing, heq]
    exact ⟨dd', st', _, Function.update_self .., hst', hcontents', Or.inl hhandle'⟩
  · obtain ⟨dd'', rfl, hturn'⟩ := Device.perform_dir hclose
    rw [Replacing, heq]
    cases hturn' with
    | close _ =>
        refine ⟨_, ⟨st'.contents, .shut⟩, _, Function.update_self .., ⟨hst'.mirrors, .closed rfl⟩,
          hcontents', Or.inr ?_⟩
        -- a short packet is the last one
        have hlast : k = d.length / 256 := by
          refine (block_length_lt_iff (by decide) hk).mp ?_
          rw [packetBytes_length] at hshort
          have h256 : Server.BLKSIZE = 256 := rfl
          omega
        rw [hlast]
        exact take_blocks_all (by decide) d

/-- **One step** of a SAVE, as the drive sees it. -/
theorem keeping_step (hphase : Phase addr name n dd d s) (hc : C64Name (decode (splitDevice name).2))
    (hkeep : Keepable (decode (splitDevice name).2)) (hname : ∀ c ∈ name, c ≠ 0)
    (hlen : name.length ≤ NAME_LIMIT)
    (hkeeping : Keeping n (decode (splitDevice name).2) m d s.save.session)
    (hst : Step myip addr s t) : Keeping n (decode (splitDevice name).2) m d t.save.session := by
  cases hst with
  | poll => exact hkeeping
  | toClient f payload rest hq hf => exact hkeeping
  | silence value hret hserver hclient =>
      unfold Session.silence
      dsimp only
      split
      · rename_i hactive
        rw [hactive] at hkeeping
        exact hkeeping
      · exact hkeeping
  | toServer p rest session hq hport hrecv =>
      show Keeping n _ m d session
      cases hphase with
      | request hsent htakes =>
          obtain ⟨rfl, -⟩ := List.cons.inj hq
          exact keeping_request hc hkeep hname hlen htakes hkeeping hrecv
      | data hsent hm hput hclient =>
          obtain ⟨rfl, -⟩ := List.cons.inj hq
          exact keeping_data hc hkeep hm hput hkeeping hrecv
      | reply _ _ _ _ _ _ => cases hq
      | ready _ _ _ _ => cases hq
      | last _ _ => cases hq
      | done _ _ => cases hq

/-- What the device holds of a name once everything is stored; a last block of fewer than 252 bytes
has closed the file. -/
theorem Stored.replacing {session : Session} (hshort : d.length % 256 < 252)
    (hstored : Stored addr n c64 dd d session) (hkeeping : Keeping n c64 m d session) :
    ∃ dd' st, session.daemon.devices n = some (.dir dd') ∧ dd'.Stores st ∧
      st.contents = Function.update m c64 (some d) ∧ dd'.file.Settled := by
  cases hstored with
  | waiting hlong _ _ => exact absurd hshort (Nat.not_lt.mpr hlong)
  | expired hlong _ => exact absurd hshort (Nat.not_lt.mpr hlong)
  | finished _ hstatus hclosed =>
      obtain ⟨dd', st, w, hdev, hst, hcontents, hhandle⟩ := hkeeping
      obtain ⟨dd'', hdev', hfile, -⟩ := hclosed
      obtain rfl : dd' = dd'' := Device.dir.inj (Option.some.inj (hdev.symm.trans hdev'))
      have hsettled : dd'.file.Settled := by
        intro name happending
        cases hfile.symm.trans happending
      rcases hhandle with hhandle | rfl
      · -- a file that has been closed is not the one appended to
        have hstands := hst.handle
        rw [hhandle] at hstands
        cases hstands with
        | appending happending _ => exact absurd happending (hsettled _)
      · exact ⟨dd', st, hdev, hst, hcontents, hsettled⟩

/-- **A SAVE changes the map at its name**, and nowhere else, and leaves no file open for appending. -/
theorem stores {g : Globals} {st : FileStore Bytes Byte} (hd : d ≠ [])
    (hlen : d.length < 65535 * 256) (hshort : d.length % 256 < 252)
    (hreq : g.tftp.requestInProgress = .norq) (hnlen : g.filename.length ≤ NAME_LIMIT)
    (hiobuf : g.iobuf.length = IOBUF_SIZE) (hc : C64Name (decode (splitDevice g.filename).2))
    (hkeep : Keepable (decode (splitDevice g.filename).2))
    (htakes : Server.Tftp.Takes devices g.filename n dd) (hst : dd.Stores st)
    (h : Reachable (Step myip addr) (start g d devices) s) (hend : Quiescent (Step myip addr) s) :
    ∃ dd' st', s.save.session.daemon.devices n = some (.dir dd') ∧ dd'.Stores st' ∧
      st'.contents = Function.update st.contents (decode (splitDevice g.filename).2) (some d) ∧
      dd'.file.Settled := by
  have hname : ∀ c ∈ g.filename, c ≠ 0 := untilNul_ne_nul _
  have hinv : Phase addr g.filename n dd d s ∧
      Keeping n (decode (splitDevice g.filename).2) st.contents d s.save.session := by
    refine reachable_invariant (I := fun s => Phase addr g.filename n dd d s ∧
      Keeping n (decode (splitDevice g.filename).2) st.contents d s.save.session)
      ⟨phase_start hd hreq hnlen hiobuf htakes, dd, st, htakes.device, hst, rfl⟩ ?_ h
    rintro u v ⟨hu, hkeeping⟩ hstep
    exact ⟨(hu.step hlen hname hnlen hstep).1, keeping_step hu hc hkeep hname hnlen hkeeping hstep⟩
  obtain ⟨hphase, hkeeping⟩ := hinv
  obtain ⟨-, hstored, -⟩ := hphase.of_quiescent hlen hname hnlen hend
  exact hstored.replacing hshort hkeeping

end SaveDelivery

/-! ## One LOAD -/

/-- What a LOAD puts out: the data of the name with EOI on the last byte, or nothing. -/
def answer (m : Bytes → Option Bytes) (c64 : Bytes) : List (Byte × Bool) :=
  match m c64 with
  | some w => withEoi w
  | none => []

/-- The files can be loaded: none is empty, nor longer than the block numbers go. -/
def Loadable (m : Bytes → Option Bytes) : Prop :=
  ∀ c64 w, m c64 = some w → w ≠ [] ∧ w.length < 65535 * 256

namespace LoadDelivery

variable {myip : Bytes} {addr : Addr} {n : Nat} {devices : Nat → Option Device} {dd : DeviceDir}
  {s : LoadDelivery} {g : Globals} {st : FileStore Bytes Byte}

/-- **A LOAD puts out what the map has**, and leaves the map alone and no file open for appending. -/
theorem loads (hreq : g.tftp.requestInProgress = .norq) (hnlen : g.filename.length ≤ NAME_LIMIT)
    (hiobuf : g.iobuf.length = IOBUF_SIZE) (hnumber : (splitDevice g.filename).1 = n)
    (hname : (decode (splitDevice g.filename).2).head? ≠ some 36)
    (hdev : devices n = some (.dir dd)) (hst : dd.Stores st) (hsettled : dd.file.Settled)
    (hloadable : Loadable st.contents) (h : Reachable (Step myip addr) (start g devices) s)
    {v : Bool} (hret : s.load.client.control = .ret v) (hserver : s.toServer = []) :
    puts s.load.client.out = answer st.contents (decode (splitDevice g.filename).2) ∧
      ∃ dd' st', s.load.session.daemon.devices n = some (.dir dd') ∧ dd'.Stores st' ∧
        st'.contents = st.contents ∧ dd'.file.Settled := by
  have hnul : ∀ c ∈ g.filename, c ≠ 0 := untilNul_ne_nul _
  have hopen := DeviceDir.openRead_of_mirrors hst.mirrors hname
  unfold answer
  cases hw : st.contents (decode (splitDevice g.filename).2) with
  | some w =>
      rw [hw] at hopen
      obtain ⟨hw0, hwlen⟩ := hloadable _ _ hw
      have hserves : Server.Tftp.Serves devices g.filename n
          (.dir { dd with file := .reading w }) w := by
        refine ⟨hnumber, ⟨_, hdev, ?_⟩, rfl⟩
        simp only [Device.openFile, DeviceDir.openFile, hopen]
      have hphase : Phase addr g.filename n (.dir { dd with file := .reading w }) w s :=
        reachable_invariant (phase_start hreq hnlen hiobuf hserves)
          (fun _ _ hu hstep => hu.step hw0 hwlen hnul hnlen hstep) h
      obtain ⟨-, hputs, -, hend⟩ := hphase.returned v hret
      obtain ⟨t, hsession, -, hdev'⟩ := hend hserver
      refine ⟨hputs, { dd with file := .closed }, ⟨st.contents, .shut⟩, ?_, ?_, rfl, ?_⟩
      · rw [hsession]
        exact hdev'
      · exact ⟨hst.mirrors, .closed rfl⟩
      · intro name happending
        cases happending
  | none =>
      rw [hw] at hopen
      have hrefuses : Refuses devices g.filename := by
        intro dev hdev'
        rw [hnumber] at hdev'
        obtain rfl : Device.dir dd = dev := Option.some.inj (hdev.symm.trans hdev')
        refine ⟨.dir dd, ?_⟩
        simp only [Device.openFile, DeviceDir.openFile, hopen]
      have hphase : Refusal addr g.filename devices s :=
        reachable_invariant (refusal_start hreq hnlen hiobuf)
          (fun _ _ hu hstep => hu.step hrefuses hnul hnlen hstep) h
      obtain ⟨hputs, hreturned⟩ := hphase.returned
      obtain ⟨-, -, t, hsession, -, hdevices⟩ := hreturned v hret
      refine ⟨hputs, dd, st, ?_, hst, rfl, hsettled⟩
      rw [hsession]
      exact (congrFun hdevices n).trans hdev

end LoadDelivery

/-! ## Sequences of transfers -/

/-- What a transfer was for: data saved under a name, or a name loaded and what was put out. -/
inductive Record where
  | saved (c64 d : Bytes)
  | loaded (c64 : Bytes) (out : List (Byte × Bool))

/-- The map after a transfer. -/
def Record.apply (m : Bytes → Option Bytes) : Record → Bytes → Option Bytes
  | .saved c64 d => Function.update m c64 (some d)
  | .loaded _ _ => m

/-- The sketch between two transfers, the name in its buffer being `c64` on device `n`. -/
structure Collected (n : Nat) (c64 : Bytes) (g : Globals) : Prop where
  request : g.tftp.requestInProgress = .norq
  length : g.filename.length ≤ NAME_LIMIT
  iobuf : g.iobuf.length = IOBUF_SIZE
  number : (splitDevice g.filename).1 = n
  name : decode (splitDevice g.filename).2 = c64

/-- A transfer over a network that delivers, from the call of `recv_file` or `send_file` to the end
of the session, with the devices before and after it. The last block of a SAVE has fewer than 252
bytes: the session would not close the file behind a longer one. -/
inductive Transfer (myip : Bytes) (addr : Addr) (n : Nat) (devices : Nat → Option Device) :
    Record → (Nat → Option Device) → Prop
  | save {g : Globals} {c64 d : Bytes} {dd : DeviceDir} {s : SaveDelivery}
      (hg : Collected n c64 g) (hc : C64Name c64) (hkeep : Keepable c64) (hd : d ≠ [])
      (hlen : d.length < 65535 * 256) (hshort : d.length % 256 < 252) (htakes : Server.Tftp.Takes devices g.filename n dd)
      (hrun : Reachable (SaveDelivery.Step myip addr) (SaveDelivery.start g d devices) s)
      (hend : Quiescent (SaveDelivery.Step myip addr) s) :
      Transfer myip addr n devices (.saved c64 d) s.save.session.daemon.devices
  | load {g : Globals} {c64 : Bytes} {s : LoadDelivery} {v : Bool} (hg : Collected n c64 g)
      (hname : c64.head? ≠ some 36)
      (hrun : Reachable (LoadDelivery.Step myip addr) (LoadDelivery.start g devices) s)
      (hret : s.load.client.control = .ret v) (hserver : s.toServer = []) :
      Transfer myip addr n devices (.loaded c64 (puts s.load.client.out))
        s.load.session.daemon.devices

inductive Transfers (myip : Bytes) (addr : Addr) (n : Nat) :
    (Nat → Option Device) → List Record → (Nat → Option Device) → Prop
  | nil (devices : Nat → Option Device) : Transfers myip addr n devices [] devices
  | cons {devices devices₁ devices' : Nat → Option Device} {r : Record} {rs : List Record}
      (hr : Transfer myip addr n devices r devices₁)
      (hrs : Transfers myip addr n devices₁ rs devices') :
      Transfers myip addr n devices (r :: rs) devices'

namespace Transfers

variable {myip : Bytes} {addr : Addr} {n : Nat} {devices devices' : Nat → Option Device}
  {dd : DeviceDir} {st : FileStore Bytes Byte} {r : Record} {rs : List Record}

/-- A file that has been saved can be loaded. -/
theorem loadable_update {m : Bytes → Option Bytes} {c64 d : Bytes} (h : Loadable m) (hd : d ≠ [])
    (hlen : d.length < 65535 * 256) : Loadable (Function.update m c64 (some d)) := by
  intro c w hw
  by_cases hcc : c = c64
  · subst hcc
    rw [Function.update_self] at hw
    obtain rfl := Option.some.inj hw
    exact ⟨hd, hlen⟩
  · rw [Function.update_of_ne hcc] at hw
    exact h c w hw

/-- **One transfer**, as the map sees it. -/
theorem step (h : Transfer myip addr n devices r devices') (hdev : devices n = some (.dir dd))
    (hst : dd.Stores st) (hsettled : dd.file.Settled) (hloadable : Loadable st.contents) :
    (∀ c64 out, r = .loaded c64 out → out = answer st.contents c64) ∧
      ∃ dd' st', devices' n = some (.dir dd') ∧ dd'.Stores st' ∧
        st'.contents = r.apply st.contents ∧ dd'.file.Settled ∧ Loadable st'.contents := by
  cases h with
  | save hg hc hkeep hd hlen hshort htakes hrun hend =>
      obtain rfl := hg.name
      rename_i g d dd₀ s
      obtain rfl : dd = dd₀ := Device.dir.inj (Option.some.inj (hdev.symm.trans htakes.device))
      obtain ⟨dd', st', hdev', hst', hcontents, hsettled'⟩ := SaveDelivery.stores hd hlen hshort
        hg.request hg.length hg.iobuf hc hkeep htakes hst hrun hend
      refine ⟨fun c64 out heq => (by cases heq), dd', st', hdev', hst', hcontents, hsettled', ?_⟩
      rw [hcontents]
      exact loadable_update hloadable hd hlen
  | load hg hname hrun hret hserver =>
      obtain rfl := hg.name
      obtain ⟨hputs, dd', st', hdev', hst', hcontents, hsettled'⟩ := LoadDelivery.loads hg.request
        hg.length hg.iobuf hg.number hname hdev hst hsettled hloadable hrun hret hserver
      refine ⟨?_, dd', st', hdev', hst', hcontents, hsettled', hcontents ▸ hloadable⟩
      intro c64 out heq
      obtain ⟨rfl, rfl⟩ := Record.loaded.inj heq
      exact hputs

/-- **Every LOAD puts out what the last SAVE of its name has brought**, in every sequence of
transfers: with EOI on the last byte, and nothing if the name is not there. Behind each of them no
file is open for appending, so that all of it is on disk. -/
theorem last_saved (h : Transfers myip addr n devices rs devices')
    (hdev : devices n = some (.dir dd)) (hst : dd.Stores st) (hsettled : dd.file.Settled)
    (hloadable : Loadable st.contents) :
    (∀ before c64 out after, rs = before ++ .loaded c64 out :: after →
      out = answer (before.foldl Record.apply st.contents) c64) ∧
      ∃ dd', devices' n = some (.dir dd') ∧ dd'.file.Settled := by
  induction h generalizing dd st with
  | nil =>
      refine ⟨?_, dd, hdev, hsettled⟩
      intro before c64 out after heq
      simp at heq
  | cons hr hrs ih =>
      obtain ⟨hanswer, dd', st', hdev', hst', hcontents, hsettled', hloadable'⟩ :=
        step hr hdev hst hsettled hloadable
      obtain ⟨hlater, hend⟩ := ih hdev' hst' hsettled' hloadable'
      refine ⟨?_, hend⟩
      intro before c64 out after heq
      cases before with
      | nil =>
          obtain ⟨rfl, -⟩ := List.cons.inj heq
          exact hanswer c64 out rfl
      | cons r' before =>
          obtain ⟨rfl, hrest⟩ := List.cons.inj heq
          rw [List.foldl_cons, ← hcontents]
          exact hlater before c64 out after hrest

/-- The name "A" has been collected. -/
theorem collected_sample : Collected 8 (ascii "A") Load.sampleGlobals where
  request := rfl
  length := by decide
  iobuf := List.length_replicate
  number := by decide
  name := by decide

theorem stores_empty : DeviceDir.empty.Stores ⟨fun _ => none, .shut⟩ where
  mirrors := DeviceDir.mirrors_of_noPc64 fun nm e hmem => by cases hmem
  handle := .unset rfl

/-- Three bytes are saved and loaded. -/
theorem last_saved_sample : ∃ devices' out,
    Transfers [] Load.sampleAddr 8 Session.sampleDevices
        [.saved (ascii "A") [1, 2, 3], .loaded (ascii "A") out] devices' ∧
      out = withEoi [1, 2, 3] := by
  have hg := collected_sample
  have hc : C64Name (ascii "A") := by
    exact Daemon.c64Name_singleton (by decide) (by decide) (by decide)
  have hkeep : Keepable (ascii "A") := Daemon.keepable_singleton (by decide)
  have hlen : ([1, 2, 3] : Bytes).length < 65535 * 256 := by decide
  -- the SAVE
  obtain ⟨⟨s, hsave, hend⟩, -⟩ := SaveDelivery.save_delivered (List.cons_ne_nil 1 [2, 3]) hlen
    hg.request hg.length hg.iobuf Save.sampleDevices_takes
    (.refl : Reachable (SaveDelivery.Step [] Load.sampleAddr) _ _)
  have hsaved := Transfer.save hg hc hkeep (List.cons_ne_nil 1 [2, 3]) hlen (by decide)
    Save.sampleDevices_takes hsave hend
  have hloadable : Loadable fun _ => none := fun c64 w hw => by cases hw
  have hsettled : DeviceDir.empty.file.Settled := fun name happending => by cases happending
  obtain ⟨-, dd, st, hdev, hst, hcontents, -⟩ := step hsaved rfl stores_empty hsettled hloadable
  -- the LOAD
  have hw : st.contents (decode (splitDevice Load.sampleGlobals.filename).2) = some [1, 2, 3] := by
    rw [hg.name, hcontents]
    rfl
  have hopen := DeviceDir.openRead_of_mirrors hst.mirrors
    (show (decode (splitDevice Load.sampleGlobals.filename).2).head? ≠ some 36 by
      rw [hg.name]
      decide)
  rw [hw] at hopen
  have hserves : Server.Tftp.Serves s.save.session.daemon.devices Load.sampleGlobals.filename 8
      (.dir { dd with file := .reading [1, 2, 3] }) [1, 2, 3] := by
    refine ⟨hg.number, ⟨_, hdev, ?_⟩, rfl⟩
    simp only [Device.openFile, DeviceDir.openFile, hopen]
  obtain ⟨t, hload, hret, hserver⟩ := LoadDelivery.exists_run [] Load.sampleAddr
    (List.cons_ne_nil 1 [2, 3]) hlen hg.request hg.length hg.iobuf hserves
  have hloaded := Transfer.load hg (by decide) hload hret hserver
  have hall := Transfers.cons hsaved (.cons hloaded (.nil _))
  exact ⟨_, _, hall, (last_saved hall rfl stores_empty hsettled hloadable).1
    [.saved (ascii "A") [1, 2, 3]] _ _ [] rfl⟩

end Transfers

end C64Iec
