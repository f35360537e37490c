import P2PFilesystem.Key
import P2PFilesystem.JsonText
import Mathlib.Data.Finite.Prod
import Mathlib.Data.Finite.Sum
import Mathlib.Data.Set.Finite.List

/-!
# Node contacts

`networking/node_info.rs`, with socket addresses and their display texts as the
standard library writes them.
-/
namespace P2PFilesystem
open JsonText

structure Ipv4Addr where
  a : UInt8
  b : UInt8
  c : UInt8
  d : UInt8
  deriving DecidableEq

/-- The eight segments of an IPv6 address. -/
structure Ipv6Addr where
  segments : List UInt16
  length_segments : segments.length = 8
  deriving DecidableEq

inductive SocketAddr where
  | v4 (ip : Ipv4Addr) (port : UInt16)
  | v6 (ip : Ipv6Addr) (port : UInt16) (flowinfo scopeId : UInt32)
  deriving DecidableEq

structure NodeInfo where
  id : Key
  address : SocketAddr
  deriving DecidableEq

def Ipv4Addr.display (ip : Ipv4Addr) : Text :=
  decimal ip.a.toNat ++ '.' :: (decimal ip.b.toNat ++ '.' :: (decimal ip.c.toNat ++ '.' :: decimal ip.d.toNat))

/-- `{:x}` of the segments, separated by colons. -/
def fmtSubslice : List UInt16 → Text
  | [] => []
  | [s] => Nat.toDigits 16 s.toNat
  | s :: t :: rest => Nat.toDigits 16 s.toNat ++ ':' :: fmtSubslice (t :: rest)

structure Span where
  start : Nat
  len : Nat

/-- The first longest run of zero segments; `i` is the index of the head of the list. -/
def longestZeroSpan : List UInt16 → Nat → Span → Span → Span
  | [], _, _, longest => longest
  | s :: rest, i, current, longest =>
      if s = 0 then
        let current : Span := ⟨if current.len = 0 then i else current.start, current.len + 1⟩
        longestZeroSpan rest (i+1) current (if current.len > longest.len then current else longest)
      else longestZeroSpan rest (i+1) ⟨0, 0⟩ longest

def Ipv6Addr.toIpv4Mapped (ip : Ipv6Addr) : Option Ipv4Addr :=
  match ip.segments with
  | [0, 0, 0, 0, 0, 0xffff, x, y] =>
      some ⟨(x >>> 8).toUInt8, x.toUInt8, (y >>> 8).toUInt8, y.toUInt8⟩
  | _ => none

def Ipv6Addr.display (ip : Ipv6Addr) : Text :=
  match ip.toIpv4Mapped with
  | some ipv4 => "::ffff:".toList ++ ipv4.display
  | none =>
      let zeroes := longestZeroSpan ip.segments 0 ⟨0, 0⟩ ⟨0, 0⟩
      if zeroes.len > 1 then
        fmtSubslice (ip.segments.take zeroes.start) ++ "::".toList ++
          fmtSubslice (ip.segments.drop (zeroes.start + zeroes.len))
      else fmtSubslice ip.segments

/-- `Display`, which serde writes for human-readable formats; the flow label is not shown. -/
def SocketAddr.display : SocketAddr → Text
  | .v4 ip port => ip.display ++ ':' :: decimal port.toNat
  | .v6 ip port _ scopeId =>
      if scopeId = 0 then '[' :: (ip.display ++ "]:".toList ++ decimal port.toNat)
      else '[' :: (ip.display ++ '%' :: (decimal scopeId.toNat ++ "]:".toList ++ decimal port.toNat))

def SocketAddr.localhost (port : UInt16) : SocketAddr := .v4 ⟨127, 0, 0, 1⟩ port

/-- The address at this port of the machine; `ip()` has no flow label and no scope. -/
def SocketAddr.atPort (self : SocketAddr) (port : UInt16) : SocketAddr :=
  match self with
  | .v4 ip _ => .v4 ip port
  | .v6 ip _ _ _ => .v6 ip port 0 0

example : (SocketAddr.localhost 8081).display = "127.0.0.1:8081".toList := by decide

section Finiteness

instance : Finite Ipv4Addr :=
  Finite.of_injective (fun ip : Ipv4Addr =>
      ((ip.a.toFin, ip.b.toFin, ip.c.toFin, ip.d.toFin) : Fin 256 × Fin 256 × Fin 256 × Fin 256)) (by
    rintro ⟨a, b, c, d⟩ ⟨a', b', c', d'⟩ h
    simp only [Prod.mk.injEq, UInt8.toFin_inj] at h
    obtain ⟨rfl, rfl, rfl, rfl⟩ := h
    rfl)

instance instFiniteUInt16 : Finite UInt16 := Finite.of_injective UInt16.toFin fun _ _ h => UInt16.toFin_inj.mp h

instance instFiniteUInt32 : Finite UInt32 := Finite.of_injective UInt32.toFin fun _ _ h => UInt32.toFin_inj.mp h

instance : Finite Ipv6Addr :=
  haveI : Finite {l : List UInt16 | l.length = 8} := List.finite_length_eq UInt16 8
  Finite.of_injective (fun ip : Ipv6Addr =>
      (⟨ip.segments, ip.length_segments⟩ : {l : List UInt16 | l.length = 8})) (by
    rintro ⟨s, hs⟩ ⟨t, ht⟩ h
    cases congrArg Subtype.val h
    rfl)

instance : Finite SocketAddr :=
  Finite.of_injective (fun addr : SocketAddr => match addr with
      | .v4 ip port => (Sum.inl (ip, port) : (Ipv4Addr × UInt16) ⊕ (Ipv6Addr × UInt16 × UInt32 × UInt32))
      | .v6 ip port flow scope => Sum.inr (ip, port, flow, scope)) (by
    rintro (⟨ip, port⟩ | ⟨ip, port, flow, scope⟩) (⟨ip', port'⟩ | ⟨ip', port', flow', scope'⟩) h
    · cases Sum.inl.inj h; rfl
    · cases h
    · cases h
    · cases Sum.inr.inj h; rfl)

instance : Finite NodeInfo :=
  Finite.of_injective (fun n : NodeInfo => (n.id, n.address)) (by
    rintro ⟨i, a⟩ ⟨j, b⟩ h
    cases h
    rfl)

end Finiteness

section DisplayLength

theorem length_decimal_le {n e : Nat} (he : 0 < e) (h : n < 10 ^ e) : (decimal n).length ≤ e :=
  (Nat.length_toDigits_le_iff (by decide) he).mpr h

theorem plain_decimal (n : Nat) : Plain (decimal n) := plain_toDigits (by decide) (by decide) n

theorem length_decimal_byte (b : UInt8) : (decimal b.toNat).length ≤ 3 :=
  length_decimal_le (by decide) (b.toNat_lt.trans (by decide))

theorem length_decimal_port (p : UInt16) : (decimal p.toNat).length ≤ 5 :=
  length_decimal_le (by decide) (p.toNat_lt.trans (by decide))

theorem length_decimal_scope (s : UInt32) : (decimal s.toNat).length ≤ 10 :=
  length_decimal_le (by decide) (s.toNat_lt.trans (by decide))

theorem Ipv4Addr.length_display (ip : Ipv4Addr) : ip.display.length ≤ 15 := by
  have ha := length_decimal_byte ip.a
  have hb := length_decimal_byte ip.b
  have hc := length_decimal_byte ip.c
  have hd := length_decimal_byte ip.d
  simp only [display, List.length_append, List.length_cons]
  omega

theorem Ipv4Addr.plain_display (ip : Ipv4Addr) : Plain ip.display :=
  (plain_decimal _).append (.cons (by decide) ((plain_decimal _).append
    (.cons (by decide) ((plain_decimal _).append (.cons (by decide) (plain_decimal _))))))

theorem length_segment (s : UInt16) : (Nat.toDigits 16 s.toNat).length ≤ 4 :=
  (Nat.length_toDigits_le_iff (by decide) (by decide)).mpr (s.toNat_lt.trans_le (by decide))

theorem length_fmtSubslice (l : List UInt16) : (fmtSubslice l).length ≤ 5 * l.length - 1 := by
  induction l with
  | nil => exact Nat.le_refl 0
  | cons s l ih => cases l with
    | nil => exact length_segment s
    | cons t rest =>
        have hs := length_segment s
        simp only [fmtSubslice, List.length_append, List.length_cons] at ih ⊢
        omega

theorem longestZeroSpan_le (l : List UInt16) (i : Nat) (current longest : Span)
    (hc : current.len = 0 ∨ current.start + current.len ≤ i) (hl : longest.start + longest.len ≤ i) :
    (longestZeroSpan l i current longest).start + (longestZeroSpan l i current longest).len ≤
      i + l.length := by
  induction l generalizing i current longest with
  | nil => exact hl.trans (Nat.le_add_right i 0)
  | cons s l ih =>
      have hlen : i + (s :: l).length = i + 1 + l.length := by simp only [List.length_cons]; omega
      rw [hlen, longestZeroSpan]
      by_cases h0 : s = 0
      · rw [if_pos h0]
        set run : Span := ⟨if current.len = 0 then i else current.start, current.len + 1⟩ with hrun
        have hle : run.start + run.len ≤ i + 1 := by
          simp only [hrun]
          split_ifs <;> omega
        apply ih
        · exact .inr hle
        · split_ifs
          · exact hle
          · exact hl.trans (Nat.le_succ i)
      · rw [if_neg h0]
        exact ih _ _ _ (.inl rfl) (hl.trans (Nat.le_succ i))

theorem plain_fmtSubslice (l : List UInt16) : Plain (fmtSubslice l) := by
  have hseg : ∀ s : UInt16, Plain (Nat.toDigits 16 s.toNat) := fun s =>
    plain_toDigits (by decide) (by decide) _
  induction l with
  | nil => intro c hc; cases hc
  | cons s l ih => cases l with
    | nil => exact hseg s
    | cons t rest => exact (hseg s).append (.cons (by decide) ih)

theorem Ipv6Addr.length_display (ip : Ipv6Addr) : ip.display.length ≤ 39 := by
  have h8 := ip.length_segments
  unfold display
  cases ip.toIpv4Mapped with
  | some ipv4 =>
      have h := ipv4.length_display
      have h7 : "::ffff:".toList.length = 7 := by decide
      simp only [List.length_append, h7]
      omega
  | none =>
      dsimp only
      have h2 : "::".toList.length = 2 := by decide
      split_ifs with hz
      · have hspan := longestZeroSpan_le ip.segments 0 ⟨0, 0⟩ ⟨0, 0⟩ (.inl rfl) (Nat.le_refl 0)
        set z := longestZeroSpan ip.segments 0 ⟨0, 0⟩ ⟨0, 0⟩
        have hl := length_fmtSubslice (ip.segments.take z.start)
        have hr := length_fmtSubslice (ip.segments.drop (z.start + z.len))
        simp only [List.length_take, List.length_drop, h8] at hl hr hspan
        simp only [List.length_append, h2]
        omega
      · have h := length_fmtSubslice ip.segments
        omega

theorem Ipv6Addr.plain_display (ip : Ipv6Addr) : Plain ip.display := by
  unfold display
  cases ip.toIpv4Mapped with
  | some ipv4 => exact Plain.append (by decide) ipv4.plain_display
  | none =>
      dsimp only
      split_ifs
      · exact ((plain_fmtSubslice _).append (by decide)).append (plain_fmtSubslice _)
      · exact plain_fmtSubslice _

/-- The longest address text is an IPv6 address with scope. -/
theorem SocketAddr.length_display (addr : SocketAddr) : addr.display.length ≤ 58 := by
  have h2 : "]:".toList.length = 2 := by decide
  cases addr with
  | v4 ip port =>
      have h := ip.length_display
      have hp := length_decimal_port port
      simp only [display, List.length_append, List.length_cons]
      omega
  | v6 ip port flow scope =>
      have h := ip.length_display
      have hp := length_decimal_port port
      have hs := length_decimal_scope scope
      simp only [display]
      split_ifs <;> simp only [List.length_append, List.length_cons, h2] <;> omega

theorem SocketAddr.plain_display (addr : SocketAddr) : Plain addr.display := by
  cases addr with
  | v4 ip port => exact ip.plain_display.append (.cons (by decide) (plain_decimal _))
  | v6 ip port flow scope =>
      simp only [display]
      split_ifs
      · exact .cons (by decide) ((ip.plain_display.append (by decide)).append (plain_decimal _))
      · exact .cons (by decide) (ip.plain_display.append (.cons (by decide)
          (((plain_decimal _).append (by decide)).append (plain_decimal _))))

end DisplayLength

end P2PFilesystem
