import TnNet.Tcp.Subr

/-!
# `tcp_reass`

Transcription of `tcp_reass` of `tn_tcp_input.c`.  `t_segq` is the list of its entries.

* `reassBefore`, `reassAfter` — the search for the first entry that begins after the segment.
* `reassTrim` — the loop that trims or dequeues the entries behind the segment.
* `reassInsert` — the queue with the segment in it, or `none` when an entry in front of it
  has all its data.
* `presentLoop` — the delivery loop behind the label `present`.
-/

set_option autoImplicit false

namespace TnNet

open SeqArith

/-- The entries up to `p`: those that do not begin after `seq`. -/
def reassBefore (segq : List Tcpqent) (seq : BitVec 32) : List Tcpqent :=
  segq.takeWhile fun q => !seqGt q.tcpqeTcp.thSeq seq

/-- The entries from `q` on. -/
def reassAfter (segq : List Tcpqent) (seq : BitVec 32) : List Tcpqent :=
  segq.dropWhile fun q => !seqGt q.tcpqeTcp.thSeq seq

/-- Cut `i` bytes from the front of an entry. -/
def Tcpqent.cut (q : Tcpqent) (i : Int) : Tcpqent :=
  { tcpqeTcp := { q.tcpqeTcp with
      thSeq := q.tcpqeTcp.thSeq + BitVec.ofInt 32 i
      thUrp := q.tcpqeTcp.thUrp - BitVec.ofInt 16 i }
    tcpqeM := mAdj q.tcpqeM i }

/-- The loop over the entries behind the segment, which ends at `fin`. -/
def reassTrim (fin : BitVec 32) : List Tcpqent → List Tcpqent
  | [] => []
  | q :: qs =>
    let i := sdist fin q.tcpqeTcp.thSeq
    if i ≤ 0 then q :: qs
    else if i < q.tcpqeTcp.thReseqlen.toNat then q.cut i :: qs
    else reassTrim fin qs

/-- How far the entry in front of the segment reaches into it. -/
def reassOverlap (segq : List Tcpqent) (seq : BitVec 32) : Int :=
  match (reassBefore segq seq).getLast? with
  | none => 0
  | some p => sdist (p.tcpqeTcp.thSeq + p.tcpqeTcp.thReseqlen.setWidth 32) seq

/-- The queue entry of a segment: `th_reseqlen` is `tlen`. -/
def reassEntry (th : TcpHdr) (m : Chain) (tlen : Nat) : Tcpqent :=
  { tcpqeTcp := { th with thUrp := BitVec.ofNat 16 tlen }, tcpqeM := m }

/-- The queue with the entry in place. -/
def reassPlace (segq : List Tcpqent) (seq : BitVec 32) (th : TcpHdr) (m : Chain) (tlen : Nat) :
    List Tcpqent :=
  reassBefore segq seq ++ reassEntry th m tlen ::
    reassTrim (th.thSeq + BitVec.ofNat 32 tlen) (reassAfter segq seq)

/-- The insertion of a segment. -/
def reassInsert (segq : List Tcpqent) (th : TcpHdr) (m : Chain) (tlen : Nat) :
    Option (List Tcpqent) :=
  let i := reassOverlap segq th.thSeq
  if 0 < i then
    if (tlen : Int) ≤ i then none
    else
      some (reassPlace segq th.thSeq { th with thSeq := th.thSeq + BitVec.ofInt 32 i } (mAdj m i)
        (tlen - i.toNat))
  else some (reassPlace segq th.thSeq th m tlen)

/-- What the delivery loop works on. -/
structure Present where
  segq : List Tcpqent
  rcvNxt : BitVec 32
  soRcv : Sockbuf
  fin : Bool := false

/-- The delivery loop. -/
def presentLoop (cantrcvmore : Bool) : List Tcpqent → BitVec 32 → Sockbuf → Bool → Present
  | [], nxt, sb, fin => ⟨[], nxt, sb, fin⟩
  | q :: qs, nxt, sb, fin =>
    if q.tcpqeTcp.thSeq = nxt then
      presentLoop cantrcvmore qs (nxt + q.tcpqeTcp.thReseqlen.setWidth 32)
        (if cantrcvmore then sb else sbappend sb q.tcpqeM) q.tcpqeTcp.thFlags.fin
    else ⟨q :: qs, nxt, sb, fin⟩

/-- `tcp_reass` from the label `present`: the connection and the `TH_FIN` it returns. -/
def tcpPresent (c : Conn) : Conn × Bool :=
  if c.tp.tState.haveEstablished then
    if c.tp.tState = .synReceived ∧
        (c.tp.tSegq.head?.map fun q => q.tcpqeTcp.thReseqlen) ≠ some 0 then (c, false)
    else
      let r := presentLoop c.so.ssCantrcvmore c.tp.tSegq c.tp.rcvNxt c.so.soRcv false
      ({ tp := { c.tp with tSegq := r.segq, rcvNxt := r.rcvNxt }
         so := { c.so with soRcv := r.soRcv } }, r.fin)
  else (c, false)

/-- `tcp_reass` with a segment; `tiqe` tells whether the queue entry could be allocated. -/
def tcpReass (tiqe : Bool) (c : Conn) (th : TcpHdr) (m : Chain) (tlen : Nat) : Conn × Bool :=
  if tiqe then
    match reassInsert c.tp.tSegq th m tlen with
    | none => (c, false)
    | some segq => tcpPresent { c with tp := { c.tp with tSegq := segq } }
  else ({ c with tp := { c.tp with tSegq := [] } }, false)

end TnNet
