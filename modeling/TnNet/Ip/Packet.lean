import TnNet.Ip.Output

/-!
# The packet in a descriptor

The bytes of a packet that lies in one descriptor, as a byte string.  A write into it is a `splice`,
writing its header puts the header in front of the rest, and moving `m_data` behind the header drops it.
-/

set_option autoImplicit false

namespace TnNet.Ip

open Bytes TnNet.Mem TnNet.Mem.Heap

variable {h : Heap} {mem : Bufs} {b d : Block} {l ip : List UInt8} {i k : Nat}

theorem length_packet (hd : h.dbuf b = some d) : (h.bytes mem b).length = (h.mb b).mLen := by
  unfold Heap.bytes
  rw [hd, length_bufBytes]

theorem bytes_writeBuf (hd : h.dbuf b = some d) (hi : i + l.length ≤ (h.mb b).mLen) :
    h.bytes (writeBuf mem (h.dbuf b) ((h.mb b).mData + i) l) b = splice (h.bytes mem b) i l := by
  unfold Heap.bytes
  rw [hd]
  exact bufBytes_splice hi

theorem iphdr_eq_take (h20 : 20 ≤ (h.mb b).mLen) : iphdr mem h b = (h.bytes mem b).take 20 := by
  have htake := bufBytes_drop_take mem (h.dbuf b) (h.mb b).mData (h.mb b).mLen 0 20
  rw [List.drop_zero, Nat.add_zero, Nat.sub_zero, Nat.min_eq_left h20] at htake
  exact htake.symm

theorem bytes_setIphdr (hd : h.dbuf b = some d) (h20 : 20 ≤ (h.mb b).mLen) (hip : ip.length = 20) :
    h.bytes (setIphdr mem h b ip) b = ip ++ (h.bytes mem b).drop 20 := by
  have hw := @bytes_writeBuf h mem b d ip 0 hd (by omega)
  rw [Nat.add_zero, splice_zero, hip] at hw
  exact hw

theorem dbuf_trim (h : Heap) (b : Block) (len data : Nat) (x : Block) :
    (h.trim b len data).dbuf x = h.dbuf x :=
  dbuf_refs (sameRefs_trim h b len data) x

theorem trim_trim (hk : k ≤ (h.mb b).mLen) :
    (h.trim b ((h.mb b).mLen - k) ((h.mb b).mData + k)).trim b
        (((h.trim b ((h.mb b).mLen - k) ((h.mb b).mData + k)).mb b).mLen + k)
        (((h.trim b ((h.mb b).mLen - k) ((h.mb b).mData + k)).mb b).mData - k) = h := by
  simp [Heap.trim, Heap.set, hk]

theorem bytes_trim (k : Nat) :
    (h.trim b ((h.mb b).mLen - k) ((h.mb b).mData + k)).bytes mem b = (h.bytes mem b).drop k := by
  have hdrop := bufBytes_drop_take mem (h.dbuf b) (h.mb b).mData (h.mb b).mLen k ((h.mb b).mLen - k)
  rw [Nat.min_self, List.take_of_length_le] at hdrop
  · unfold Heap.bytes
    rw [dbuf_trim, hdrop]
    simp [Heap.trim]
  · cases hb : h.dbuf b with
    | none => simp [bufBytes]
    | some d => simp [bufBytes]

end TnNet.Ip
