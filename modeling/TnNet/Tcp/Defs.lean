import TnNet.Lib.SeqArith
import TnNet.Mbuf

/-!
# TCP data model

The types of `tn_tcp.h` and `tn_sockets_tcp.h` that the TCP code of `tn_net` works on, for one
connection: `struct tcphdr`, `struct tcpqent`, `struct tcpcb`, `struct sockbuf` and
`struct socket_tcp`.

* `tcp_seq` and `u32_t` fields are `BitVec 32`; `int`, `long` and `short` values are `Int`, with
  `s16` where a wider value is stored in a `short`.
* The bits of `t_flags`, `so_state`, `so_options` and `th_flags` are Boolean fields.
* A socket buffer is the list of its bytes (`sb_cc` is its length).  `sbLog` is a history
  variable: every byte ever appended to the buffer.
* The four cells of `t_timer[]` are the fields `timerRexmt`, `timerPersist`, `timerKeep` and
  `timer2msl`.
-/

set_option autoImplicit false

namespace TnNet

open SeqArith

/-- A value stored in a `short`. -/
def s16 (x : Int) : Int := (x + 32768) % 65536 - 32768

/-! ## Constants -/

def TCP_MSS : Int := 512
def TCP_MAXWIN : BitVec 32 := 65535
def TCP_MAXRXTSHIFT : Nat := 12
def TCPTV_MSL : Int := 2
def TCPTV_PERSMIN : Int := 10
def TCPTV_PERSMAX : Int := 120
def TCPTV_KEEP_INIT : Int := 2
def TCPTV_REXMTMAX : Int := 128

def EPIPE : Int := 32
def ENETDOWN : Int := 50
def ECONNABORTED : Int := 53
def ECONNRESET : Int := 54
def ENOBUFS : Int := 55
def ETIMEDOUT : Int := 60
def ECONNREFUSED : Int := 61
def EHOSTUNREACH : Int := 65

/-- `tnet->tcp_recvspace`, as `tcp_init` sets it. -/
def tcpRecvspace : Int := 1536

/-- `tnet->tcp_keepidle` (`TCPTV_KEEP_IDLE`). -/
def tcpKeepidle : Int := 2

/-- `tnet->tcp_keepintvl` (`TCPTV_KEEPINTVL`). -/
def tcpKeepintvl : Int := 2

/-- `tnet->tcp_maxidle` (`TCPTV_KEEPCNT * tcp_keepintvl`). -/
def tcpMaxidle : Int := 4

/-- `tcp_backoff[]`. -/
def tcpBackoff (shift : Nat) : Int :=
  [1, 2, 4, 8, 16, 32, 64, 64, 64, 64, 64, 64, 64].getD shift 0

/-! ## Connection states -/

/-- `TCPS_*`. -/
inductive TcpState where
  | closed
  | listen
  | synSent
  | synReceived
  | established
  | closeWait
  | finWait1
  | closing
  | lastAck
  | finWait2
  | timeWait
  deriving DecidableEq, Repr

/-- The numbering of the states, which the source compares. -/
def TcpState.num : TcpState → Nat
  | .closed => 0
  | .listen => 1
  | .synSent => 2
  | .synReceived => 3
  | .established => 4
  | .closeWait => 5
  | .finWait1 => 6
  | .closing => 7
  | .lastAck => 8
  | .finWait2 => 9
  | .timeWait => 10

/-- `TCPS_HAVERCVDSYN`. -/
def TcpState.haveRcvdSyn (s : TcpState) : Bool := decide (TcpState.synReceived.num ≤ s.num)

/-- `TCPS_HAVEESTABLISHED`. -/
def TcpState.haveEstablished (s : TcpState) : Bool := decide (TcpState.established.num ≤ s.num)

/-- `TCPS_HAVERCVDFIN`. -/
def TcpState.haveRcvdFin (s : TcpState) : Bool :=
  decide (s = .closeWait ∨ (TcpState.closing.num ≤ s.num ∧ s ≠ .finWait2))

/-! ## Segments -/

/-- The bits of `th_flags`. -/
structure ThFlags where
  fin : Bool := false
  syn : Bool := false
  rst : Bool := false
  push : Bool := false
  ack : Bool := false
  urg : Bool := false
  deriving DecidableEq, Repr

/-- `struct tcphdr` in host byte order (ports as received). -/
structure TcpHdr where
  thSport : BitVec 16 := 0
  thDport : BitVec 16 := 0
  thSeq : BitVec 32
  thAck : BitVec 32 := 0
  thFlags : ThFlags
  thWin : BitVec 16 := 0
  thUrp : BitVec 16 := 0
  deriving DecidableEq, Repr

/-- `th_reseqlen`: the header word of `th_urp`, reused by the resequencing queue. -/
def TcpHdr.thReseqlen (th : TcpHdr) : BitVec 16 := th.thUrp

/-- `struct tcpqent`: an out-of-order segment. -/
structure Tcpqent where
  tcpqeTcp : TcpHdr
  tcpqeM : Chain
  deriving DecidableEq, Repr

/-- An incoming segment as `tcp_input` has it when the pcb is known: the header, the option
    bytes, and the whole packet with `hlen = iphlen + off` header bytes.  The length of an IP
    packet is a 16-bit number, and `off` has been checked against it. -/
structure Seg where
  th : TcpHdr
  opt : List UInt8 := []
  m : Chain
  hlen : Nat
  hlen_le : hlen ≤ chainLen m
  len_lt : chainLen m < 65536

/-- The payload bytes of a segment. -/
def Seg.payload (s : Seg) : List UInt8 := (chainBytes s.m).drop s.hlen

/-- `tlen`: the length of the segment's data. -/
def Seg.tlen (s : Seg) : Nat := chainLen s.m - s.hlen

theorem Seg.payload_length (s : Seg) : s.payload.length = s.tlen := by
  simp [Seg.payload, Seg.tlen, chainLen]

theorem chainLen_headed (data : List UInt8) :
    chainLen [{ mData := List.replicate 40 0 ++ data }] = 40 + data.length := by
  simp only [chainLen, chainBytes, List.flatMap_cons, List.flatMap_nil, List.length_append,
    List.length_replicate, List.length_nil, Nat.add_zero]

theorem le_chainLen_headed (data : List UInt8) :
    40 ≤ chainLen [{ mData := List.replicate 40 0 ++ data }] := by
  rw [chainLen_headed]
  omega

theorem chainLen_headed_lt {data : List UInt8} (h : data.length < 65496) :
    chainLen [{ mData := List.replicate 40 0 ++ data }] < 65536 := by
  rw [chainLen_headed]
  omega

/-- A segment with 40 header bytes and no options. -/
def Seg.ofData (th : TcpHdr) (data : List UInt8) (h : data.length < 65496) : Seg where
  th := th
  m := [{ mData := List.replicate 40 0 ++ data }]
  hlen := 40
  hlen_le := le_chainLen_headed data
  len_lt := chainLen_headed_lt h

theorem nil_short : ([] : List UInt8).length < 65496 := by decide

/-- A segment without data. -/
def Seg.bare (th : TcpHdr) : Seg := .ofData th [] nil_short

theorem singleton_short (b : UInt8) : [b].length < 65496 := by simp

/-- A segment with one byte. -/
def Seg.ofByte (th : TcpHdr) (b : UInt8) : Seg := .ofData th [b] (singleton_short b)

/-- A packet handed to `ip_output` by `tcp_output`, with the value of `t_force` and the result
    of `ip_output`. -/
structure Emit where
  thSeq : BitVec 32
  thAck : BitVec 32
  thFlags : ThFlags
  thWin : BitVec 16
  thUrp : BitVec 16
  data : List UInt8
  forced : Bool
  error : Int
  deriving DecidableEq, Repr

/-! ## Control block and socket -/

/-- `struct tcpcb`. -/
structure Tcpcb where
  tSegq : List Tcpqent := []
  tTemplate : Bool := false
  sndUna : BitVec 32 := 0
  sndNxt : BitVec 32 := 0
  sndUp : BitVec 32 := 0
  sndWl1 : BitVec 32 := 0
  sndWl2 : BitVec 32 := 0
  iss : BitVec 32 := 0
  sndWnd : BitVec 32 := 0
  rcvWnd : BitVec 32 := 0
  rcvNxt : BitVec 32 := 0
  rcvUp : BitVec 32 := 0
  irs : BitVec 32 := 0
  rcvAdv : BitVec 32 := 0
  sndMax : BitVec 32 := 0
  sndCwnd : BitVec 32 := 0
  sndSsthresh : BitVec 32 := 0
  tRtseq : BitVec 32 := 0
  maxSndwnd : BitVec 32 := 0
  tState : TcpState := .closed
  tRxtshift : Nat := 0
  tRxtcur : Int := 0
  tDupacks : Int := 0
  tMaxseg : Nat := 0
  acknow : Bool := false
  delack : Bool := false
  nodelay : Bool := false
  noopt : Bool := false
  sentfin : Bool := false
  timerRexmt : Int := 0
  timerPersist : Int := 0
  timerKeep : Int := 0
  timer2msl : Int := 0
  tIdle : Int := 0
  tRtt : Int := 0
  tSrtt : Int := 0
  tRttvar : Int := 0
  tRttmin : Int := 0
  tForce : Bool := false
  tSofterror : Int := 0
  deriving DecidableEq, Repr

/-- `struct sockbuf`. -/
structure Sockbuf where
  sbData : List UInt8 := []
  sbHiwat : Nat := 0
  sbLog : List UInt8 := []
  deriving DecidableEq, Repr

def Sockbuf.sbCc (sb : Sockbuf) : Nat := sb.sbData.length

/-- `sbspace`, read as a signed value. -/
def sbspace (sb : Sockbuf) : Int :=
  (BitVec.ofNat 32 sb.sbHiwat - BitVec.ofNat 32 sb.sbCc).toInt

theorem sbspace_eq {sb : Sockbuf} (h1 : sb.sbHiwat < 2147483648) (h2 : sb.sbCc < 2147483648) :
    sbspace sb = (sb.sbHiwat : Int) - sb.sbCc := by
  have hat : ∀ n : Nat, At (0 : BitVec 32) (BitVec.ofNat 32 n) n := by
    intro n
    simpa using (At.base (0 : BitVec 32)).addNat n
  exact (hat sb.sbHiwat).sdist (hat sb.sbCc) (by omega) (by omega)

/-- `sbappend`: the bytes of the chain are added at the end. -/
def sbappend (sb : Sockbuf) (m : Chain) : Sockbuf :=
  { sb with sbData := sb.sbData ++ chainBytes m, sbLog := sb.sbLog ++ chainBytes m }

/-- `sbdrop`: drop bytes from the front. -/
def sbdrop (sb : Sockbuf) (len : Nat) : Sockbuf := { sb with sbData := sb.sbData.drop len }

/-- `sbflush`. -/
def sbflush (sb : Sockbuf) : Sockbuf := sbdrop sb sb.sbCc

/-- `struct socket_tcp`, the fields the protocol code works on. -/
structure SocketTcp where
  soAcceptconn : Bool := false
  soLingerOpt : Bool := false
  soKeepalive : Bool := false
  soReuseport : Bool := false
  soLinger : Int := 0
  ssNofdref : Bool := false
  ssIsconnected : Bool := false
  ssIsconnecting : Bool := false
  ssIsdisconnecting : Bool := false
  ssCantsendmore : Bool := false
  ssCantrcvmore : Bool := false
  ssNbio : Bool := false
  soError : Int := 0
  soRcv : Sockbuf := {}
  soSnd : Sockbuf := {}
  deriving DecidableEq, Repr

/-- A connection: the control block and its socket. -/
structure Conn where
  tp : Tcpcb
  so : SocketTcp
  deriving DecidableEq, Repr

/-- A frame is stated with a map `k` that erases what may change: a field `f` that `k` keeps is
    the same on both sides. -/
theorem field_of_kept {α β : Type} {k : α → α} (f : α → β) {a b : α} (h : k a = k b)
    (hf : ∀ a, f (k a) = f a) : f a = f b := by
  rw [← hf a, h, hf]

/-! ## Macros -/

/-- `SEQ_LT`. -/
def seqLt (a b : BitVec 32) : Bool := decide (sdist a b < 0)

/-- `SEQ_LEQ`. -/
def seqLeq (a b : BitVec 32) : Bool := decide (sdist a b ≤ 0)

/-- `SEQ_GT`. -/
def seqGt (a b : BitVec 32) : Bool := decide (0 < sdist a b)

/-- **Sequence comparisons are exact** for positions less than `2 ^ 31` apart. -/
theorem seqLt_at {b x y : BitVec 32} {m n : Int} (hx : At b x m) (hy : At b y n)
    (hl : -2147483648 ≤ m - n) (hu : m - n < 2147483648) : seqLt x y = decide (m < n) := by
  unfold seqLt
  rw [hx.sdist hy (by omega) (by omega)]
  exact decide_eq_decide.mpr (by omega)

theorem seqLeq_at {b x y : BitVec 32} {m n : Int} (hx : At b x m) (hy : At b y n)
    (hl : -2147483648 ≤ m - n) (hu : m - n < 2147483648) : seqLeq x y = decide (m ≤ n) := by
  unfold seqLeq
  rw [hx.sdist hy (by omega) (by omega)]
  exact decide_eq_decide.mpr (by omega)

theorem seqGt_at {b x y : BitVec 32} {m n : Int} (hx : At b x m) (hy : At b y n)
    (hl : -2147483648 ≤ m - n) (hu : m - n < 2147483648) : seqGt x y = decide (n < m) := by
  unfold seqGt
  rw [hx.sdist hy (by omega) (by omega)]
  exact decide_eq_decide.mpr (by omega)

/-- `TCPT_RANGESET` on a `short`. -/
def rangeset (value tvmin tvmax : Int) : Int :=
  let tv := s16 value
  if tv < tvmin then tvmin else if tvmax < tv then tvmax else tv

theorem rangeset_bounds (value : Int) {tvmin tvmax : Int} (h : tvmin ≤ tvmax) :
    tvmin ≤ rangeset value tvmin tvmax ∧ rangeset value tvmin tvmax ≤ tvmax := by
  unfold rangeset
  dsimp only
  split
  · omega
  · split <;> omega

/-- `TCP_REXMTVAL`. -/
def tcpRexmtval (tp : Tcpcb) : Int := tp.tSrtt / 8 + tp.tRttvar

/-- `tcp_sendseqinit`. -/
def tcpSendseqinit (tp : Tcpcb) : Tcpcb :=
  { tp with sndUna := tp.iss, sndNxt := tp.iss, sndMax := tp.iss, sndUp := tp.iss }

/-- `tcp_rcvseqinit`. -/
def tcpRcvseqinit (tp : Tcpcb) : Tcpcb :=
  { tp with rcvAdv := tp.irs + 1, rcvNxt := tp.irs + 1 }

/-- `tcp_mss`: `ifMtu` is the MTU of the interface, absent for a `NULL` interface. -/
def tcpMss (tp : Tcpcb) (offer : Nat) (ifMtu : Option Int) : Tcpcb × Int :=
  let mss : Int := match ifMtu with
    | some mtu => mtu - 40
    | none => TCP_MSS
  let mss := if offer ≠ 0 then min mss offer else mss
  let mss := max mss 32
  let tp := if mss < tp.tMaxseg ∨ offer ≠ 0 then { tp with tMaxseg := mss.toNat % 65536 } else tp
  ({ tp with sndCwnd := BitVec.ofInt 32 mss }, mss)

/-- `tcp_canceltimers`. -/
def tcpCanceltimers (tp : Tcpcb) : Tcpcb :=
  { tp with timerRexmt := 0, timerPersist := 0, timerKeep := 0, timer2msl := 0 }

/-- `tcp_newtcpcb`: a zeroed block with its initial values. -/
def tcpNewtcpcb : Tcpcb :=
  { tMaxseg := 512
    tRttvar := 24
    tRttmin := 2
    tRxtcur := rangeset 12 2 TCPTV_REXMTMAX
    sndCwnd := TCP_MAXWIN
    sndSsthresh := TCP_MAXWIN }

end TnNet
