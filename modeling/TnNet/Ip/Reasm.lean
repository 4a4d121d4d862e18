import TnNet.Lib.Bytes
import TnNet.Lib.Run

/-!
# IP reassembly

`ip4_reasm`, `ip_freef` and `ip_slowtimo` of `tn_ip_input.c`.  The driver hands over a datagram in a
single mbuf, so a fragment is one descriptor with its `m_len` bytes.  `tn_net_alloc_min` is an input of
the call: the block it returns, or none.  What the pools and the caller see is the list of `Obs`.

A pointer is modelled where it decides something: `prev_frag` and `next_frag` are the last entry in
front of the new one and the first one behind it, and what `re->frag_list` leads to after the links
are set is `linkFrag`.
-/

set_option autoImplicit false

namespace TnNet.Ip

open Bytes

def IP4_REASM_PACKETS : Nat := 1

def IP4_MAX_REASM_FRAGMENTS : Nat := 2

def IPFRAGTTL : Nat := 2

def IP_RF : Nat := 0x8000

def IP_DF : Nat := 0x4000

def IP_MF : Nat := 0x2000

def IP_OFFMASK : Nat := 0x1fff

/-- `struct mbuf`: the address of the descriptor, the `m_len` bytes at `m_data`, and `m_tlen`. -/
structure Mb where
  addr : Nat
  mData : List UInt8
  mTlen : BitVec 20 := 0
  deriving DecidableEq

def Mb.mLen (mb : Mb) : Nat := mb.mData.length

/-! ## The IP header at `m_data` -/

/-- `ip_hl << 2`. -/
def Mb.iphlen (mb : Mb) : Nat := (mb.mData.getD 0 0).toNat % 16 * 4

/-- `ntohs(ip->ip_len)`. -/
def Mb.ipLen (mb : Mb) : Nat := be16 mb.mData 2

/-- `ntohs(ip->ip_off)`. -/
def Mb.ipOff (mb : Mb) : Nat := be16 mb.mData 6

/-- `ip_id`, `ip_src`, `ip_dst` and `ip_p`. -/
structure Key where
  id : Nat
  src : Nat × Nat
  dst : Nat × Nat
  p : UInt8
  deriving DecidableEq, Inhabited

def Mb.key (mb : Mb) : Key where
  id := be16 mb.mData 4
  src := (be16 mb.mData 12, be16 mb.mData 14)
  dst := (be16 mb.mData 16, be16 mb.mData 18)
  p := mb.mData.getD 9 0

/-- `(ntohs(ip->ip_off) & IP_OFFMASK) << 3`. -/
def Mb.offset (mb : Mb) : Nat := (mb.ipOff &&& IP_OFFMASK) <<< 3

/-- The bytes behind the header. -/
def Mb.payload (mb : Mb) : List UInt8 := mb.mData.drop mb.iphlen

/-- A fragment as `ipv4_input` passes it to `ip4_reasm`: the header is complete, `m_len` was trimmed
    to `ip_len`, `MF` or an offset is set, and with `MF` the data length is a non-zero multiple
    of 8. -/
structure Fragment extends Mb where
  hdr : 20 ≤ toMb.iphlen
  len : toMb.ipLen = toMb.mLen
  fits : toMb.iphlen ≤ toMb.mLen
  frag : toMb.ipOff &&& IP_MF ≠ 0 ∨ toMb.offset ≠ 0
  mult : toMb.ipOff &&& IP_MF ≠ 0 → toMb.payload.length ≠ 0 ∧ toMb.payload.length % 8 = 0

/-! ## The reassembly list -/

/-- `struct frag_entry`. -/
structure FragEntry where
  addr : Nat
  mb : Mb
  last : Int
  offset : Int
  flags : Nat
  deriving DecidableEq

/-- `struct reasm_entry`. -/
structure ReasmEntry where
  fragList : List FragEntry := []
  key : Key := default
  nfrag : Nat := 0
  raTtl : Nat := 0
  deriving DecidableEq, Inhabited

/-- `tnet->ip_reasm_list`. -/
abbrev ReasmList := List ReasmEntry

/-- What is seen of the reassembly: a fragment is passed in, a `frag_entry` is allocated, a block goes
    back to its pool, a datagram is returned.  `held` of a return is the list it was made from. -/
inductive Obs where
  | passed (mb : Nat)
  | allocFrag (frag : Nat)
  | freeMbuf (mb : Nat)
  | freeFrag (frag : Nat)
  | returned (held : List FragEntry) (chain : List Mb)
  deriving DecidableEq

/-- `ip_freef`. -/
def ipFreef (re : ReasmEntry) : ReasmEntry × List Obs :=
  ({ re with fragList := [], raTtl := 0 },
    re.fragList.flatMap fun frag => [.freeMbuf frag.mb.addr, .freeFrag frag.addr])

/-- The loop that looks for the entry of a datagram: its index, and the index of the last free entry
    it has passed. -/
def searchEntry (key : Key) : ReasmList → Nat → Option Nat → Option Nat × Option Nat
  | [], _, free => (none, free)
  | re :: l, i, free =>
    if re.fragList = [] then searchEntry key l (i + 1) (some i)
    else if key = re.key then (some i, free)
    else searchEntry key l (i + 1) free

/-- Free all entries. -/
def freeAll (l : ReasmList) : ReasmList × List Obs :=
  (l.map fun re => (ipFreef re).1, l.flatMap fun re => (ipFreef re).2)

/-- Fill a new entry. -/
def ReasmEntry.fill (re : ReasmEntry) (key : Key) : ReasmEntry :=
  { re with key := key, raTtl := IPFRAGTTL, nfrag := 0 }

/-- The entry of a fragment: the list with a new entry where there was none, what was freed for it,
    and its index. -/
def pickEntry (l : ReasmList) (key : Key) : ReasmList × List Obs × Nat :=
  match searchEntry key l 0 none with
  | (some i, _) => (l, [], i)
  | (none, some i) => (l.set i ((l.getD i default).fill key), [], i)
  | (none, none) =>
    let r := freeAll l
    (r.1.set 0 ((r.1.getD 0 default).fill key), r.2, 0)

/-- The fragments in front of the first one that begins behind `offset`, and the others. -/
def splitFrags (offset : Int) (l : List FragEntry) : List FragEntry × List FragEntry :=
  (l.takeWhile fun frag => decide (frag.offset ≤ offset),
    l.dropWhile fun frag => decide (frag.offset ≤ offset))

/-- Cut the IP header if the fragment is not the first one; nothing if no data is left. -/
def cutHeader (new : FragEntry) (iphlen : Nat) : Option FragEntry :=
  if new.offset ≠ 0 then
    if new.mb.mLen ≤ iphlen then none
    else some { new with mb := { new.mb with mData := new.mb.mData.drop iphlen } }
  else some new

/-- Strip the overlap with the preceding fragment. -/
def stripPrev (prev : Option FragEntry) (new : FragEntry) : Option FragEntry :=
  match prev with
  | none => some new
  | some prev =>
    let len := prev.last - new.offset
    if 0 < len then
      if (new.mb.mLen : Int) ≤ len then none
      else some { new with
        offset := new.offset + len
        mb := { new.mb with mData := new.mb.mData.drop len.toNat } }
    else some new

/-- Strip the overlap with the succeeding fragment. -/
def stripNext (next : Option FragEntry) (new : FragEntry) : Option FragEntry :=
  match next with
  | none => some new
  | some next =>
    let len := new.last - next.offset
    if 0 < len then
      if (new.mb.mLen : Int) ≤ len then none
      else some { new with
        mb := { new.mb with mData := new.mb.mData.take (new.mb.mLen - len.toNat) } }
    else some new

/-- What `re->frag_list` leads to behind the links: it is set only when it was `NULL`, and
    `prev_frag->next` only when there is a preceding fragment. -/
def linkFrag (before after : List FragEntry) (new : FragEntry) : List FragEntry :=
  if before ++ after = [] then [new]
  else if before ≠ [] then before ++ new :: after
  else after

/-- The scan for holes: the last fragment when there are none. -/
def scanFrags : Option FragEntry → List FragEntry → Option FragEntry
  | prev, [] => prev
  | none, frag :: l => scanFrags (some frag) l
  | some prev, frag :: l => if frag.offset ≠ prev.last then none else scanFrags (some frag) l

/-- The sum of the `m_len`. -/
def chainLen (chain : List Mb) : Nat := (chain.map Mb.mLen).sum

/-- `ip_len` and `ip_off` of the whole datagram. -/
def updateHeader (mb : Mb) (len : Nat) : Mb :=
  let d := setBe16 mb.mData 2 len
  { mb with mTlen := BitVec.ofNat 20 len, mData := setBe16 d 6 (be16 d 6 &&& (IP_DF ||| IP_RF)) }

/-- The resulting chain. -/
def finishChain : List Mb → List Mb
  | [] => []
  | mb :: l => updateHeader mb (chainLen (mb :: l)) :: l

/-- The check for completeness, and the return. -/
def checkComplete (re : ReasmEntry) : ReasmEntry × List Obs :=
  match scanFrags none re.fragList with
  | none => (re, [])
  | some last =>
    if last.flags &&& IP_MF = 0 then
      ({ re with fragList := [] },
        re.fragList.map (fun frag => .freeFrag frag.addr) ++
          [.returned re.fragList (finishChain (re.fragList.map FragEntry.mb))])
    else (re, [])

/-- The new `frag_entry`. -/
def newFrag (addr : Nat) (mbIn : Mb) : FragEntry where
  addr := addr
  mb := mbIn
  offset := mbIn.offset
  last := (mbIn.ipLen : Int) - mbIn.iphlen + mbIn.offset
  flags := mbIn.ipOff &&& (0xffff - IP_OFFMASK)

/-- Trim the new fragment. -/
def trimFrag (before after : List FragEntry) (new : FragEntry) (iphlen : Nat) : Option FragEntry :=
  ((cutHeader new iphlen).bind (stripPrev before.getLast?)).bind (stripNext after.head?)

/-- The part of `ip4_reasm` behind the choice of the entry. -/
def queueFrag (re : ReasmEntry) (mbIn : Mb) (alloc : Option Nat) : ReasmEntry × List Obs :=
  let re := { re with nfrag := re.nfrag + 1 }
  if IP4_MAX_REASM_FRAGMENTS < re.nfrag then
    ((ipFreef re).1, (ipFreef re).2 ++ [.freeMbuf mbIn.addr])
  else
    match alloc with
    | none => (re, [.freeMbuf mbIn.addr])
    | some addr =>
      let new := newFrag addr mbIn
      let parts := splitFrags new.offset re.fragList
      match trimFrag parts.1 parts.2 new mbIn.iphlen with
      | none => (re, [.allocFrag addr, .freeMbuf mbIn.addr, .freeFrag addr])
      | some new =>
        let r := checkComplete { re with fragList := linkFrag parts.1 parts.2 new }
        (r.1, .allocFrag addr :: r.2)

/-- `ip4_reasm`. -/
def ip4Reasm (l : ReasmList) (mbIn : Mb) (alloc : Option Nat) : ReasmList × List Obs :=
  let p := pickEntry l mbIn.key
  let r := queueFrag (p.1.getD p.2.2 default) mbIn alloc
  (p.1.set p.2.2 r.1, p.2.1 ++ r.2)

/-- One entry in `ip_slowtimo`. -/
def slowtimoEntry (re : ReasmEntry) : ReasmEntry × List Obs :=
  if re.raTtl ≠ 0 then
    let re := { re with raTtl := re.raTtl - 1 }
    if re.raTtl = 0 then ipFreef re else (re, [])
  else (re, [])

/-- `ip_slowtimo`. -/
def ipSlowtimo (l : ReasmList) (cnt : Int) : ReasmList × List Obs :=
  if cnt % 5 = 0 then
    (l.map fun re => (slowtimoEntry re).1, l.flatMap fun re => (slowtimoEntry re).2)
  else (l, [])

/-- A call. -/
inductive Event where
  | reasm (frag : Fragment) (alloc : Option Nat)
  | slowtimo (cnt : Int)

/-- The machine. -/
def reasmMachine : Machine.Step ReasmList Event Obs := fun l ev =>
  match ev with
  | .reasm frag alloc =>
    let r := ip4Reasm l frag.toMb alloc
    (some r.1, .passed frag.addr :: r.2)
  | .slowtimo cnt =>
    let r := ipSlowtimo l cnt
    (some r.1, r.2)

/-- `g_ip_reasm_arr`. -/
def reasmStart : ReasmList := List.replicate IP4_REASM_PACKETS {}

end TnNet.Ip
