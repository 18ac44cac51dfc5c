/-
  Keys of sockets.

  A key holds the node's id in its high half and the port's index in its low half.  Read as a number it
  is `id * 2 ^ 32 + index` (`toNat_key`), and all else follows from there: every key is the key of just
  one socket, and keys are ordered as their sockets are, by node first and by port second.
-/
import FragmentGraph.Socket
import Mathlib.Algebra.Group.Nat.Defs

namespace FragmentGraph

namespace Socket

/-- A key as a number. -/
theorem toNat_key (s : Socket) : s.key.toNat = s.node.toNat * 2 ^ 32 + s.port.toNat := by
  have hnode := s.node.toNat_lt
  have hport := s.port.toNat_lt
  have hhigh : (s.node.toUInt64 <<< 32).toNat = s.node.toNat <<< 32 := by
    rw [UInt64.toNat_shiftLeft, UInt32.toNat_toUInt64]
    show s.node.toNat <<< 32 % 2 ^ 64 = _
    rw [Nat.shiftLeft_eq]
    exact Nat.mod_eq_of_lt (by omega)
  rw [key, UInt64.toNat_or, hhigh, UInt32.toNat_toUInt64,
    ← Nat.shiftLeft_add_eq_or_of_lt hport, Nat.shiftLeft_eq]

/-- Two sockets have the same key only if they are the same. -/
theorem key_inj {s t : Socket} : s.key = t.key ↔ s = t := by
  constructor
  · intro h
    have hnat := congrArg UInt64.toNat h
    rw [toNat_key, toNat_key] at hnat
    have hs := s.port.toNat_lt
    have ht := t.port.toNat_lt
    have hnode : s.node = t.node := UInt32.toNat_inj.mp (by omega)
    have hport : s.port = t.port := UInt32.toNat_inj.mp (by omega)
    cases s
    cases t
    rw [Socket.mk.injEq]
    exact ⟨hnode, hport⟩
  · intro h
    rw [h]

end Socket

/-- Every key is the key of a socket. -/
theorem SocketKey.exists_socket (k : SocketKey) : ∃ s : Socket, s.key = k := by
  have hk := UInt64.toNat_lt k
  refine ⟨⟨UInt32.ofNat (k.toNat / 2 ^ 32), UInt32.ofNat (k.toNat % 2 ^ 32)⟩,
    UInt64.toNat_inj.mp ?_⟩
  rw [Socket.toNat_key, UInt32.toNat_ofNat', UInt32.toNat_ofNat']
  omega

namespace Socket

/-- The node in the key of a socket is the socket's. -/
theorem node_key (s : Socket) : s.key.node = s.node := by
  have hnode := s.node.toNat_lt
  have hport := s.port.toNat_lt
  rw [← UInt32.toNat_inj, SocketKey.node, UInt64.toNat_toUInt32, UInt64.toNat_shiftRight]
  show s.key.toNat >>> 32 % 2 ^ 32 = s.node.toNat
  rw [Nat.shiftRight_eq_div_pow, toNat_key]
  omega

/-- The port in the key of a socket is the socket's. -/
theorem port_key (s : Socket) : s.key.port = s.port := by
  have hport := s.port.toNat_lt
  rw [← UInt32.toNat_inj, SocketKey.port, UInt64.toNat_toUInt32, toNat_key]
  omega

/-- One key is less than another if its node is, or if the nodes are the same and its port is. -/
theorem key_lt_iff {s t : Socket} :
    s.key < t.key ↔ s.node < t.node ∨ s.node = t.node ∧ s.port < t.port := by
  have hs := s.port.toNat_lt
  have ht := t.port.toNat_lt
  rw [UInt64.lt_iff_toNat_lt, UInt32.lt_iff_toNat_lt, UInt32.lt_iff_toNat_lt, ← UInt32.toNat_inj,
    toNat_key, toNat_key]
  omega

/-- Keys are ordered as their sockets. -/
theorem compare_key (s t : Socket) : Ord.compare s.key t.key = s.compare t := by
  have hs := s.port.toNat_lt
  have ht := t.port.toNat_lt
  simp only [Socket.compare, Ord.compare, compareOfLessAndEq, UInt64.lt_iff_toNat_lt,
    UInt32.lt_iff_toNat_lt, ← UInt64.toNat_inj, ← UInt32.toNat_inj, toNat_key]
  rcases Nat.lt_trichotomy s.node.toNat t.node.toNat with h | h | h
  · rw [if_pos (by omega), if_pos h]; rfl
  · rw [h, if_neg (Nat.lt_irrefl _), if_pos rfl]
    rcases Nat.lt_trichotomy s.port.toNat t.port.toNat with h' | h' | h'
    · rw [if_pos (by omega), if_pos h']; rfl
    · rw [h', if_neg (Nat.lt_irrefl _), if_pos rfl, if_neg (Nat.lt_irrefl _), if_pos rfl]; rfl
    · rw [if_neg (by omega), if_neg (by omega), if_neg (by omega), if_neg (by omega)]; rfl
  · rw [if_neg (by omega), if_neg (by omega), if_neg (by omega), if_neg (by omega)]; rfl

end Socket

end FragmentGraph
