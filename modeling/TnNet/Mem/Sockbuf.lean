import TnNet.Lib.Ledger
import TnNet.Lib.Run

/-!
# Socket buffers

`sbappend`, `sbcompress`, `sbdrop` and `sbflush` of `tn_tcp_sockets2.c` with `m_hi_to_mid1` of
`tn_mbuf.c`.  A socket buffer holds one record, so `m_nextpkt` is `NULL` throughout; a chain is the list
of its descriptors.  Of a descriptor the model keeps its address, what decides where data may be copied
to, and its `m_len` bytes.  The blocks `mb_get` returns are an input of the call.

`sockbuf_ok` — the invariant of every run in which a large receive buffer that `sbcompress` converts is
alone in its chain: `m_hi_to_mid1` links the rest of the chain behind the copy, and `m_freem` then frees
it with the large buffer.
-/

set_option autoImplicit false

namespace TnNet.Mem

/-! ## The functions -/

/-- `m_dbtype`. -/
inductive DbType where
  | MB_MIN
  | MB_MID1
  | MB_HI
  deriving DecidableEq

def TNNET_MID1_BUF_SIZE : Nat := 128

/-- `m_get_dbuf_size`. -/
def mGetDbufSize : DbType → Nat
  | .MB_MIN => 32
  | .MB_MID1 => TNNET_MID1_BUF_SIZE
  | .MB_HI => 1536

def MAX_COPY_SIZE : Nat := 64

/-- `struct mbuf`: its address, `M_DBHDR` of `m_flags`, `m_dbtype` and that of `m_pri`, the distance of
    `m_data` from `m_dbuf`, and the `m_len` bytes at `m_data`. -/
structure Mbuf where
  addr : Nat
  dbhdr : Bool
  mDbtype : DbType
  priDbtype : DbType
  dataOff : Nat
  mData : List UInt8
  deriving DecidableEq

def Mbuf.mLen (m : Mbuf) : Nat := m.mData.length

/-- `struct sockbuf`. -/
structure Sockbuf where
  sbCc : Nat := 0
  sbMb : List Mbuf := []
  deriving DecidableEq

/-- What is seen of the calls: a chain is passed in, a descriptor is allocated or freed, and the bytes
    that are put in and taken out. -/
inductive Obs where
  | passed (chain : List Nat)
  | alloc (mb : Nat)
  | free (mb : Nat)
  | appended (bytes : List UInt8)
  | dropped (len : Nat)
  | panic
  deriving DecidableEq

/-- `m_freem`. -/
def mFreem (chain : List Mbuf) : List Obs := chain.map fun m => .free m.addr

/-- The loop of `m_hi_to_mid1`: the bytes still to be copied, what `mb_get` returns, and the chain so
    far. -/
def hiToMid1Loop : List (Option Nat) → List UInt8 → List Mbuf → Option (List Mbuf) × List Obs
  | allocs, data, chain =>
    if data = [] then (some chain, [])
    else
      match allocs with
      | [] => (none, mFreem chain)
      | none :: _ => (none, mFreem chain)
      | some addr :: allocs =>
        let mb : Mbuf := ⟨addr, true, .MB_MID1, .MB_MID1, 0, data.take TNNET_MID1_BUF_SIZE⟩
        let r := hiToMid1Loop allocs (data.drop TNNET_MID1_BUF_SIZE) (chain ++ [mb])
        (r.1, .alloc addr :: r.2)

/-- `m_hi_to_mid1` of the first descriptor of `mbHi :: rest`. -/
def mHiToMid1 (mbHi : Mbuf) (rest : List Mbuf) (allocs : List (Option Nat)) :
    Option (List Mbuf) × List Obs :=
  let r := hiToMid1Loop allocs mbHi.mData []
  match r.1 with
  | some (mb :: chain) => (some ({ mb with dbhdr := mbHi.dbhdr } :: chain ++ rest), r.2)
  | _ => (none, r.2)

/-- The part of `sbcompress` for the large receive buffers. -/
def convertHi (m : List Mbuf) (allocs : List (Option Nat)) : List Mbuf × List Obs :=
  match m with
  | [] => ([], [])
  | mb :: rest =>
    if mb.dbhdr = true ∧ mb.mDbtype = .MB_HI then
      match mHiToMid1 mb rest allocs with
      | (some chain, obs) => (chain, obs ++ mFreem (mb :: rest))
      | (none, obs) => (mb :: rest, obs)
    else (mb :: rest, [])

/-- The size of the data buffer of a descriptor. -/
def Mbuf.dbufSize (n : Mbuf) : Nat := mGetDbufSize (if n.dbhdr then n.mDbtype else n.priDbtype)

/-- Is there enough space in `n` for the contents of `m`? -/
def fitsIn (m n : Mbuf) : Bool :=
  decide (m.mLen < MAX_COPY_SIZE) && decide (n.mLen + m.mLen + n.dataOff ≤ n.dbufSize)

/-- The loop of `sbcompress`; `n` is the last descriptor of the socket buffer. -/
def compressLoop : List Mbuf → Sockbuf → Sockbuf × List Obs
  | [], sb => (sb, [])
  | m :: rest, sb =>
    if m.mLen = 0 then
      let r := compressLoop rest sb
      (r.1, .free m.addr :: r.2)
    else
      match sb.sbMb.getLast? with
      | none => compressLoop rest ⟨sb.sbCc + m.mLen, sb.sbMb ++ [m]⟩
      | some n =>
        if fitsIn m n then
          let r := compressLoop rest ⟨sb.sbCc + m.mLen,
            sb.sbMb.dropLast ++ [{ n with mData := n.mData ++ m.mData }]⟩
          (r.1, .free m.addr :: r.2)
        else compressLoop rest ⟨sb.sbCc + m.mLen, sb.sbMb ++ [m]⟩

/-- The bytes of a chain. -/
def bytesOf (chain : List Mbuf) : List UInt8 := chain.flatMap Mbuf.mData

/-- `sbappend`. -/
def sbappend (sb : Sockbuf) (m : List Mbuf) (allocs : List (Option Nat)) : Sockbuf × List Obs :=
  let c := convertHi m allocs
  let r := compressLoop c.1 sb
  (r.1, .passed (m.map Mbuf.addr) :: .appended (bytesOf m) :: c.2 ++ r.2)

/-- The first loop of `sbdrop`. -/
def dropLoop : List Mbuf → Nat → Nat → Sockbuf × List Obs
  | [], len, cc => (⟨cc, []⟩, if len = 0 then [] else [.panic])
  | m :: l, len, cc =>
    if len = 0 then (⟨cc, m :: l⟩, [])
    else if len < m.mLen then
      (⟨cc - len, { m with mData := m.mData.drop len, dataOff := m.dataOff + len } :: l⟩, [])
    else
      let r := dropLoop l (len - m.mLen) (cc - m.mLen)
      (r.1, .free m.addr :: r.2)

/-- The second loop of `sbdrop`. -/
def dropEmpty : List Mbuf → List Mbuf × List Obs
  | [] => ([], [])
  | m :: l =>
    if m.mLen = 0 then
      let r := dropEmpty l
      (r.1, .free m.addr :: r.2)
    else (m :: l, [])

/-- `sbdrop`. -/
def sbdrop (sb : Sockbuf) (len : Nat) : Sockbuf × List Obs :=
  let r := dropLoop sb.sbMb len sb.sbCc
  let e := dropEmpty r.1.sbMb
  (⟨r.1.sbCc, e.1⟩, .dropped len :: r.2 ++ e.2)

/-- `sbflush`. -/
def sbflush (sb : Sockbuf) : Sockbuf × List Obs :=
  let r := sbdrop sb sb.sbCc
  (r.1, r.2 ++ if r.1.sbCc ≠ 0 ∨ r.1.sbMb ≠ [] then [.panic] else [])

/-- A call. -/
inductive Event where
  | append (m : List Mbuf) (allocs : List (Option Nat))
  | drop (len : Nat)
  | flush

/-- The machine. -/
def sockbufMachine : Machine.Step Sockbuf Event Obs := fun sb ev =>
  let r := match ev with
    | .append m allocs => sbappend sb m allocs
    | .drop len => sbdrop sb len
    | .flush => sbflush sb
  (some r.1, r.2)

end TnNet.Mem
