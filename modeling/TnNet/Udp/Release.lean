import TnNet.Pcb.Bind
import TnNet.Udp.Output

/-!
# What `udp_s_sendto` releases

`sendto_released_iff`: each descriptor is freed or given to `ip_output` once, the lock is as before, and
so are the addresses of the block, exactly when the call does not come to the header, or there is a
buffer for it, and the foreign port of a block that is connected for the call was 0.  Without a buffer
for the header the data and the address are never freed.
-/

set_option autoImplicit false

namespace TnNet.Udp

open Bytes TnNet.Mem TnNet.Pcb

variable {tnet : Pcb.Netifs} {fuel id i : Nat} {h : Heap} {mem : Bufs} {s : Inpcbs} {inp : Inpcb}
  {held nbio : Bool} {mb : Block} {l chain : List Block} {wake : Nat → Heap → Heap} {data : List UInt8}
  {r : SendOut} {nam : Nam}

/-! ## Allocation -/

/-- There is no descriptor exactly when one of the two pools is empty. -/
theorem mbGet_eq_none_iff {k : DbType} {tx : Bool} (hq : Heap.dbufPool k tx ≠ .lobuf) :
    (h.mbGet k tx).2 = none ↔ h.free .lobuf = [] ∨ h.free (Heap.dbufPool k tx) = [] := by
  unfold Heap.mbGet Heap.mAllocHdr Heap.alloc
  cases hl : h.free .lobuf with
  | nil => simp
  | cons b l => cases hf : h.free (Heap.dbufPool k tx) <;> simp [Heap.set, Function.update_of_ne hq, hf]

theorem txLoop_ne_nil (n : Nat) (hne : chain ≠ []) : (txLoop wake nbio n data chain h mem).2.2.1 ≠ [] := by
  induction n generalizing data chain h mem with
  | zero => exact hne
  | succ n ih =>
    unfold txLoop
    split
    · exact hne
    · split
      · exact hne
      · exact ih (by simp)

/-- The chain has a first descriptor. -/
theorem txLoop_chain (hdata : data ≠ []) (hok : (txLoop wake nbio data.length data [] h mem).2.2.2 = true) :
    (txLoop wake nbio data.length data [] h mem).2.2.1 ≠ [] := by
  obtain ⟨c, rest, rfl⟩ := List.exists_cons_of_ne_nil hdata
  rw [List.length_cons] at hok ⊢
  unfold txLoop at hok ⊢
  rw [if_neg hdata] at hok ⊢
  split
  · rename_i hget
    rw [hget] at hok
    cases hok
  · exact txLoop_ne_nil _ (by simp)

/-! ## The temporary connection -/

/-- The local address a connection has. -/
def localAddr (tnet : Pcb.Netifs) (inp : Inpcb) (addr : BitVec 32) : Option (BitVec 32) :=
  if inp.inpLaddr = 0 then (tnIpRoute tnet addr).map fun ni => ni.ipAddr else some inp.inpLaddr

/-- The block can be connected to an address. -/
def Connects (tnet : Pcb.Netifs) (s : Inpcbs) (inp : Inpcb) (nam : Nam) : Prop :=
  nam.mLen = sockaddrInSize ∧ nam.sinFamily = AF_INET ∧ nam.sinPort ≠ 0 ∧
    ∃ laddr, localAddr tnet inp (connectAddr tnet nam.sinAddr) = some laddr ∧
      inPcblookup s.pcbs (connectAddr tnet nam.sinAddr) nam.sinPort laddr inp.inpLport false = none

theorem inPcbbind_length {r : Pcbd} (hr : inPcbbind tnet fuel s i none = some r) :
    r.s.pcbs.length = s.pcbs.length := by
  unfold inPcbbind at hr
  split at hr
  · rw [← Option.some_inj.mp hr]
  rename_i inp hget
  split at hr
  · rw [← Option.some_inj.mp hr]
  dsimp only at hr
  unfold bindPort at hr
  rw [hget] at hr
  dsimp only at hr
  rw [if_pos rfl] at hr
  obtain ⟨q, -, hq⟩ := Option.map_eq_some_iff.mp hr
  rw [← hq]
  exact List.length_set

/-- What `in_pcbconnect` does behind its checks. -/
structure Connected (s : Inpcbs) (i : Nat) (ok : Prop) (r : Pcbd) : Prop where
  rc : r.rc = 0 ↔ ok
  done : r.rc = 0 → ∃ b, r.s.pcbs[i]? = some b
  failed : r.rc ≠ 0 → r.s = s

theorem connectTo_spec {ifAddr addr : BitVec 32} {port : BitVec 16} {r : Pcbd}
    (hget : s.pcbs[i]? = some inp) (hr : connectTo tnet fuel s i inp ifAddr addr port = some r) :
    Connected s i (inPcblookup s.pcbs addr port (if inp.inpLaddr ≠ 0 then inp.inpLaddr else ifAddr)
      inp.inpLport false = none) r := by
  have hi := (List.getElem?_eq_some_iff.mp hget).1
  unfold connectTo at hr
  cases hfound : inPcblookup s.pcbs addr port (if inp.inpLaddr ≠ 0 then inp.inpLaddr else ifAddr)
    inp.inpLport false with
  | some j =>
    have hrc : Pcb.EADDRINUSE ≠ 0 := by decide
    rw [hfound, Option.isSome_some, if_pos rfl] at hr
    rw [← Option.some_inj.mp hr]
    exact ⟨iff_of_false hrc (by simp), fun h0 => absurd h0 hrc, fun _ => rfl⟩
  | none =>
    rw [hfound, if_neg (by simp)] at hr
    obtain ⟨s1, hs1, hr⟩ := Option.map_eq_some_iff.mp hr
    have hlen : s1.pcbs.length = s.pcbs.length := by
      split at hs1
      · obtain ⟨r1, hr1, rfl⟩ := Option.map_eq_some_iff.mp hs1
        exact inPcbbind_length hr1
      · rw [← Option.some_inj.mp hs1]
    rw [← hr]
    refine ⟨iff_of_true rfl rfl, fun _ => ?_, fun h0 => absurd rfl h0⟩
    exact ⟨_, List.getElem?_eq_getElem (by simpa [hlen] using hi)⟩

/-- `in_pcbconnect` connects the block, or leaves the list as it is. -/
theorem inPcbconnect_spec {r : Pcbd} (hget : s.pcbs[i]? = some inp)
    (hr : inPcbconnect tnet fuel s i nam = some r) : Connected s i (Connects tnet s inp nam) r := by
  have hfail : ∀ rc : Int, rc ≠ 0 → ¬ Connects tnet s inp nam →
      (some ⟨rc, s⟩ : Option Pcbd) = some r → Connected s i (Connects tnet s inp nam) r := by
    intro rc hrc hno hr
    rw [← Option.some_inj.mp hr]
    exact ⟨iff_of_false hrc hno, fun h0 => absurd h0 hrc, fun _ => rfl⟩
  unfold inPcbconnect at hr
  rw [hget] at hr
  dsimp only at hr
  split at hr
  · rename_i hm
    exact hfail _ (by decide) (fun hc => hm hc.1) hr
  split at hr
  · rename_i hf
    exact hfail _ (by decide) (fun hc => hf hc.2.1) hr
  split at hr
  · rename_i hp
    exact hfail _ (by decide) (fun hc => hc.2.2.1 hp) hr
  rename_i hm hf hp
  rw [not_not] at hm hf
  have hconn : Connects tnet s inp nam ↔
      ∃ laddr, localAddr tnet inp (connectAddr tnet nam.sinAddr) = some laddr ∧
      inPcblookup s.pcbs (connectAddr tnet nam.sinAddr) nam.sinPort laddr inp.inpLport false = none :=
    ⟨fun hc => hc.2.2.2, fun he => ⟨hm, hf, hp, he⟩⟩
  unfold localAddr at hconn
  split at hr
  · rename_i hl
    rw [if_pos hl] at hconn
    cases hroute : tnIpRoute tnet (connectAddr tnet nam.sinAddr) with
    | none =>
      rw [hroute] at hr
      exact hfail _ (by decide) (by simp [hconn, hroute]) hr
    | some ni =>
      rw [hroute] at hr
      obtain ⟨hrc, hdone, hfailed⟩ := connectTo_spec hget hr
      refine ⟨?_, hdone, hfailed⟩
      rw [hrc, hconn, hroute, if_neg (not_not.mpr hl)]
      simp
  · rename_i hl
    rw [if_neg hl] at hconn
    obtain ⟨hrc, hdone, hfailed⟩ := connectTo_spec hget hr
    refine ⟨?_, hdone, hfailed⟩
    rw [hrc, hconn, if_pos hl]
    simp

/-- With fewer blocks than ports `in_pcbconnect` ends. -/
theorem inPcbconnect_isSome (hlen : s.pcbs.length < 3977) (hfuel : 3978 ≤ fuel) :
    (inPcbconnect tnet fuel s i nam).isSome := by
  have hbind : (inPcbbind tnet fuel s i none).isSome := by
    unfold inPcbbind
    split
    · rfl
    split
    · rfl
    rename_i inp hget _
    obtain ⟨q, hq⟩ := portLoop_total hlen inp.inpLaddr s.inpLport
    dsimp only
    unfold bindPort
    rw [hget]
    dsimp only
    rw [if_pos rfl, portLoop_le hq hfuel]
    rfl
  have hto : ∀ inp ifAddr addr port, (connectTo tnet fuel s i inp ifAddr addr port).isSome := by
    intro inp ifAddr addr port
    unfold connectTo
    generalize (if inp.inpLaddr ≠ 0 then inp.inpLaddr else ifAddr) = laddr
    dsimp only
    split
    · rfl
    · rw [Option.isSome_map]
      split
      · rwa [Option.isSome_map]
      · rfl
  unfold inPcbconnect
  split
  · rfl
  dsimp only
  split
  · rfl
  split
  · rfl
  split
  · rfl
  split
  · split
    · rfl
    · exact hto _ _ _ _
  · exact hto _ _ _ _

/-! ## What a call releases -/

/-- The addresses of a block. -/
def addrs (inp : Inpcb) : BitVec 32 × BitVec 32 × BitVec 16 := (inp.inpLaddr, inp.inpFaddr, inp.inpFport)

/-- Each descriptor of the call is freed or given to `ip_output` once, and the lock and the addresses of
    the block are as before. -/
structure Released (s : Inpcbs) (i : Nat) (held : Bool) (r : SendOut) : Prop where
  once : (r.freed ++ r.given.flatten).Perm r.obtained
  lock : r.held = held
  addrs : (r.s.pcbs[i]?).map addrs = (s.pcbs[i]?).map addrs

/-- There is a descriptor and a buffer for the header. -/
def HeaderRoom (h : Heap) : Prop := h.free .lobuf ≠ [] ∧ h.free .drvLobuf ≠ []

/-- `udp_output` comes to the header: the block is connected, or can be. -/
def Sends (tnet : Pcb.Netifs) (s : Inpcbs) (inp : Inpcb) (a : SendArgs) : Prop :=
  match a.mbAddr with
  | none => inp.inpFaddr ≠ 0
  | some nam => inp.inpFaddr = 0 ∧ Connects tnet s inp (sockaddrIn a.mem a.heap nam)

/-- When a call releases everything. -/
def Releases (tnet : Pcb.Netifs) (wake : Nat → Heap → Heap) (nbio : Bool) (h : Heap) (mem : Bufs)
    (s : Inpcbs) (i : Nat) (held : Bool) (buf dest : Option (List UInt8)) : Prop :=
  ∀ inp a, s.pcbs[i]? = some inp → sendArgs wake nbio h mem s held buf dest = .ok a →
    Sends tnet s inp a → HeaderRoom a.heap ∧ (a.mbAddr ≠ none → inp.inpFport = 0)

theorem splx_splnet (held : Bool) : splx (splnet held).1 (splnet held).2 = held := by cases held <;> rfl

/-- Everything that the caller and the call have obtained. -/
def SendOut.add (r : SendOut) (before : List Block) : SendOut := { r with obtained := before ++ r.obtained }

/-- The header and what follows, when the block is connected. -/
theorem udpSend_connected :
    Released s i held ((udpSend tnet id h mem s i held mb l none).add (mb :: l)) ↔ HeaderRoom h := by
  have hroom := @mbGet_eq_none_iff h .MB_MIN true (by decide)
  unfold HeaderRoom udpSend
  dsimp only
  cases hm : h.mbGet .MB_MIN true with
  | mk h1 r =>
    rw [hm] at hroom
    cases r with
    | none =>
      refine iff_of_false (fun hr => ?_) (by simpa [Heap.dbufPool, imp_iff_not_or] using hroom.mp rfl)
      have hlen := hr.once.length_eq
      simp [SendOut.add] at hlen
    | some m =>
      refine iff_of_true ⟨?_, rfl, rfl⟩ ?_
      · simp only [SendOut.add, Option.map_none, Option.toList_none, List.nil_append, List.flatten_cons,
          List.flatten_nil, List.append_nil]
        exact @List.perm_append_comm _ [m] _
      · simpa [Heap.dbufPool] using hroom

/-- The header and what follows, when the block `inp` has been connected. -/
theorem udpSend_temporary {s1 : Inpcbs} {b : Inpcb} {sm : Nat} {nam : Block} {held1 : Bool}
    (hget : s.pcbs[i]? = some inp) (hb : s1.pcbs[i]? = some b) (hsm : splx sm held1 = held)
    (hfree : inp.inpFaddr = 0) :
    Released s i held ((udpSend tnet id h mem s1 i held1 mb l (some ⟨nam, inp.inpLaddr, sm⟩)).add
      (nam :: mb :: l)) ↔ HeaderRoom h ∧ inp.inpFport = 0 := by
  have hroom := @mbGet_eq_none_iff h .MB_MIN true (by decide)
  have haddrs : ((restore (some ⟨nam, inp.inpLaddr, sm⟩) s1 i).pcbs[i]?).map addrs =
      (s.pcbs[i]?).map addrs ↔ inp.inpFport = 0 := by
    have hrest : (restore (some ⟨nam, inp.inpLaddr, sm⟩) s1 i).pcbs[i]? =
        some { b with inpLaddr := inp.inpLaddr, inpFaddr := 0, inpFport := 0 } := by
      unfold restore
      simp [hb]
    rw [hrest, hget]
    simp only [Option.map_some, addrs, Option.some.injEq, Prod.mk.injEq, hfree, true_and]
    exact eq_comm
  unfold HeaderRoom udpSend
  dsimp only
  cases hm : h.mbGet .MB_MIN true with
  | mk h1 r =>
    rw [hm] at hroom
    cases r with
    | none =>
      refine iff_of_false (fun hr => ?_) fun hc => ?_
      · have hlen := hr.once.length_eq
        simp [SendOut.add] at hlen
      · rcases hroom.mp rfl with h0 | h0
        · exact hc.1.1 h0
        · exact hc.1.2 h0
    | some m =>
      have hsome : h.free .lobuf ≠ [] ∧ h.free .drvLobuf ≠ [] := by simpa [Heap.dbufPool] using hroom
      constructor
      · exact fun hr => ⟨hsome, haddrs.mp hr.addrs⟩
      · rintro ⟨-, hport⟩
        refine ⟨?_, hsm, haddrs.mpr hport⟩
        simp only [SendOut.add, Option.map_some, Option.toList_some, List.flatten_cons,
          List.flatten_nil, List.append_nil, List.cons_append, List.nil_append]
        exact (@List.perm_append_comm _ [m] (mb :: l)).cons nam

/-- A datagram that is not sent is freed. -/
theorem released_drop {rc : Int} {s1 : Inpcbs} {held1 : Bool} {mbAddr : Option Block} (hs : s1 = s)
    (hheld : held1 = held) :
    Released s i held ((sendDrop rc h mem s1 held1 mb l mbAddr).add (mbAddr.toList ++ mb :: l)) := by
  subst hs hheld
  refine ⟨?_, rfl, rfl⟩
  simp only [SendOut.add, sendDrop, List.flatten_nil, List.append_nil]
  exact List.perm_append_comm

/-- `udp_output` of a chain that is not too long. -/
theorem udpOutput_released_iff {a : SendArgs} (hget : s.pcbs[i]? = some inp)
    (hfit : (a.heap.mb a.mb).mTlen.toNat + udpiphdrSize ≤ IP_MAXPACKET)
    (hr : udpOutput tnet fuel id a.heap a.mem s i inp held a.mb a.l a.mbAddr = some r) :
    Released s i held (r.add (a.mbAddr.toList ++ a.mb :: a.l)) ↔
      (Sends tnet s inp a → HeaderRoom a.heap ∧ (a.mbAddr ≠ none → inp.inpFport = 0)) := by
  unfold udpOutput at hr
  unfold Sends
  dsimp only at hr
  rw [if_neg (Nat.not_lt.mpr hfit)] at hr
  cases hm : a.mbAddr with
  | none =>
    rw [hm] at hr
    dsimp only at hr
    split at hr
    · rename_i hf
      rw [← Option.some_inj.mp hr]
      exact iff_of_true (released_drop rfl rfl) fun hne => absurd hf hne
    · rename_i hf
      rw [← Option.some_inj.mp hr, Option.toList_none, List.nil_append, udpSend_connected]
      exact ⟨fun hr _ => ⟨hr, fun hne => absurd rfl hne⟩, fun hall => (hall hf).1⟩
  | some nam =>
    rw [hm] at hr
    dsimp only at hr
    split at hr
    · rename_i hf
      rw [← Option.some_inj.mp hr]
      exact iff_of_true (released_drop rfl rfl) fun hsend => absurd hsend.1 hf
    · rename_i hf
      rw [not_not] at hf
      cases hconn : inPcbconnect tnet fuel s i (sockaddrIn a.mem a.heap nam) with
      | none =>
        rw [hconn] at hr
        cases hr
      | some c =>
        rw [hconn] at hr
        obtain ⟨hrc, hb, hs⟩ := inPcbconnect_spec hget hconn
        dsimp only at hr
        split at hr
        · rename_i hne
          rw [← Option.some_inj.mp hr]
          exact iff_of_true (released_drop (hs hne) (splx_splnet held)) fun hsend =>
            absurd (hrc.mpr hsend.2) hne
        · rename_i hok
          rw [not_not] at hok
          obtain ⟨b, hb⟩ := hb hok
          have hc := hrc.mp hok
          rw [← Option.some_inj.mp hr, Option.toList_some, List.singleton_append,
            udpSend_temporary hget hb (splx_splnet held) hf]
          simp [hf, hc]

/-! ## Every call -/

/-- What the part in front of `udp_output` leaves: everything is released, or a chain that is not too
    long. -/
theorem sendArgs_spec {buf dest : Option (List UInt8)} :
    match sendArgs wake nbio h mem s held buf dest with
    | .error r => Released s i held r
    | .ok a => (a.heap.mb a.mb).mTlen.toNat + udpiphdrSize ≤ IP_MAXPACKET := by
  have hnothing : ∀ (rc : Int) (h : Heap) (mem : Bufs),
      Released s i held { rc, heap := h, mem, s, held } := fun rc h mem =>
    ⟨List.Perm.refl _, rfl, rfl⟩
  unfold sendArgs
  dsimp only
  by_cases hdata : buf.getD [] = [] ∨ UDP_MAX_TX_SIZE < (buf.getD []).length
  · rw [if_pos hdata]
    exact hnothing _ _ _
  rw [if_neg hdata]
  rw [not_or, Nat.not_lt] at hdata
  generalize (if dest.getD [] = [] then (h, mem, Except.ok none) else
    ((sockargs h mem (dest.getD [])).1, (sockargs h mem (dest.getD [])).2.1,
      (sockargs h mem (dest.getD [])).2.2.map some)) = args
  obtain ⟨h1, mem1, nam⟩ := args
  cases nam with
  | error rc => exact hnothing _ _ _
  | ok mbAddr =>
    dsimp only
    have hne := @txLoop_chain h1 mem1 nbio wake _ hdata.1
    generalize txLoop wake nbio (buf.getD []).length (buf.getD []) [] h1 mem1 = loop at hne
    obtain ⟨h2, mem2, chain, ok⟩ := loop
    cases ok with
    | false =>
      refine ⟨?_, rfl, rfl⟩
      simp only [List.flatten_nil, List.append_nil]
      exact List.perm_append_comm
    | true =>
      cases chain with
      | nil => exact absurd rfl (hne rfl)
      | cons mb l =>
        have hle := hdata.2
        simp only [Heap.set_mb_self, BitVec.toNat_ofNat]
        unfold UDP_MAX_TX_SIZE at hle
        unfold udpiphdrSize IP_MAXPACKET
        omega

/-- **`udp_s_sendto` releases everything** exactly when the header can be allocated, if the call comes
    to it, and the foreign port of a block that it connects was 0.  With fewer blocks than ports it
    returns. -/
theorem sendto_released_iff (tnet : Pcb.Netifs) (wake : Nat → Heap → Heap) (nbio : Bool) (id : Nat)
    (h : Heap) (mem : Bufs) (s : Inpcbs) (i : Nat) (held : Bool) (buf dest : Option (List UInt8)) :
    (∀ fuel r, udpSSendto tnet fuel wake nbio id h mem s i held buf dest = some r →
      (Released s i held r ↔ Releases tnet wake nbio h mem s i held buf dest)) ∧
    (s.pcbs.length < 3977 → ∀ fuel, 3978 ≤ fuel →
      (udpSSendto tnet fuel wake nbio id h mem s i held buf dest).isSome) := by
  have hspec := @sendArgs_spec i h mem s held nbio wake buf dest
  unfold udpSSendto Releases
  cases hget : s.pcbs[i]? with
  | none =>
    refine ⟨fun fuel r hr => iff_of_true ?_ fun inp a hc => absurd hc (by simp), fun _ _ _ => rfl⟩
    rw [← Option.some_inj.mp hr]
    exact ⟨List.Perm.refl _, rfl, rfl⟩
  | some inp =>
    dsimp only
    cases ha : sendArgs wake nbio h mem s held buf dest with
    | error r1 =>
      rw [ha] at hspec
      refine ⟨fun fuel r hr => iff_of_true ?_ fun inp a _ hc => absurd hc (by simp), fun _ _ _ => rfl⟩
      rwa [← Option.some_inj.mp hr]
    | ok a =>
      rw [ha] at hspec
      dsimp only
      constructor
      · intro fuel r hr
        obtain ⟨r1, hr1, rfl⟩ := Option.map_eq_some_iff.mp hr
        have hiff := udpOutput_released_iff hget hspec hr1
        have hrc : Released s i held { r1 with
            rc := if 0 < r1.rc then -r1.rc else r1.rc
            obtained := a.mbAddr.toList ++ (a.mb :: a.l) ++ r1.obtained } ↔
            Released s i held (r1.add (a.mbAddr.toList ++ a.mb :: a.l)) :=
          ⟨fun hc => ⟨hc.once, hc.lock, hc.addrs⟩, fun hc => ⟨hc.once, hc.lock, hc.addrs⟩⟩
        rw [hrc, hiff]
        simp
      · intro hlen fuel hfuel
        have hconn := fun nam => @inPcbconnect_isSome tnet fuel i s nam hlen hfuel
        rw [Option.isSome_map]
        unfold udpOutput
        dsimp only
        split
        · rfl
        split
        · split <;> rfl
        · rename_i nam _
          split
          · rfl
          · obtain ⟨c, hc⟩ := Option.isSome_iff_exists.mp (hconn (sockaddrIn a.mem a.heap nam))
            rw [hc]
            dsimp only
            split <;> rfl

/-- A socket that is connected to port 9 of 10.0.0.2. -/
def connected : Inpcbs :=
  ⟨5000, [{ inpFaddr := 0x0a000002, inpLaddr := 0x0a000001, inpFport := 0x0900, inpLport := 0x0104 }]⟩

def noInterface : Pcb.Netifs := ⟨[], none⟩

/-- Four bytes, with free buffers: the packet is not routed, and freed. -/
theorem sendto_released_connected :
    (∀ fuel r, udpSSendto noInterface fuel (fun _ h => h) true 7 Owners.start.heap (fun _ _ => 0)
      connected 0 false
      (some [1, 2, 3, 4]) none = some r → Released connected 0 false r) ∧
    (udpSSendto noInterface 3978 (fun _ h => h) true 7 Owners.start.heap (fun _ _ => 0) connected 0 false
      (some [1, 2, 3, 4]) none).isSome := by
  obtain ⟨hiff, htotal⟩ :=
    sendto_released_iff noInterface (fun _ h => h) true 7 Owners.start.heap (fun _ _ => 0) connected 0
    false (some [1, 2, 3, 4]) none
  refine ⟨fun fuel r hr => (hiff fuel r hr).mpr ?_, htotal (by decide) 3978 (Nat.le_refl _)⟩
  intro inp a hget ha _
  have hroom : (sendArgs (fun _ h => h) true Owners.start.heap (fun _ _ => 0) connected false
      (some [1, 2, 3, 4])
      none).toOption.all (fun a => a.heap.free .lobuf != [] && a.heap.free .drvLobuf != [] &&
      a.mbAddr == none) = true := by
    decide +kernel
  rw [ha] at hroom
  simp only [Except.toOption, Option.all_some, Bool.and_eq_true, bne_iff_ne, beq_iff_eq] at hroom
  exact ⟨hroom.1, fun hne => absurd hroom.2 hne⟩

/-- All the small buffers of the driver are in use. -/
def noHeader : Owners := (List.replicate 8 (.get .MB_MIN true)).foldl Owners.step Owners.start

theorem noHeader_leaks :
    (udpSSendto noInterface 3978 (fun _ h => h) true 7 noHeader.heap (fun _ _ => 0) connected 0 false
    (some [1, 2, 3, 4]) none).map (fun r => (r.rc, r.obtained, r.freed, r.given)) = some (-55,
    [⟨.lobuf, 8⟩], [], []) := by
  decide +kernel

/-- Without a buffer for the header the data is neither sent nor freed. -/
theorem sendto_leaks :
    ¬ ∀ (tnet : Pcb.Netifs) (wake : Nat → Heap → Heap) (nbio : Bool) (id : Nat) (h : Heap) (mem : Bufs)
      (s : Inpcbs) (i : Nat) (held : Bool) (buf dest : Option (List UInt8)) (fuel : Nat) (r : SendOut),
      udpSSendto tnet fuel wake nbio id h mem s i held buf dest = some r → Released s i held r := by
  intro hall
  have hleak := noHeader_leaks
  obtain ⟨r, hr, hfields⟩ := Option.map_eq_some_iff.mp hleak
  have hrel := hall _ _ _ _ _ _ _ _ _ _ _ _ r hr
  simp only [Prod.mk.injEq] at hfields
  obtain ⟨-, hobtained, hfreed, hgiven⟩ := hfields
  have hlen := hrel.once.length_eq
  rw [hobtained, hfreed, hgiven] at hlen
  exact absurd hlen (by decide)

end TnNet.Udp
