import PhpQuic.Stream
import PhpQuic.Lib.Store

/-!
# The strings of PHP's engine, and `src/buffer.c`

A `zend_string` is a block of bytes with its length, and a function that goes past the end of a
block, or through a pointer that was freed, is `none`. `bufferAppend` and `bufferRead`, of which the
model of the methods is made, are the lists that the functions of `src/buffer.c` keep.

A block is moved when its size changes, and what is new in it is unknown (`fill`). Left out: the
reference counts, since nothing shares a string of a stream, and the padding behind a block.

* `Strings.append`, `Strings.read`: the two functions.
* `Contains`: a string with its length and the NUL behind it.
* `append_spec`, `read_spec`: what one call does to the buffer, and that nothing else is touched.
-/

namespace PhpQuic

/-- `zend_string`, with the bytes of its block behind the header. -/
structure ZendString where
  len : Nat
  val : Bytes
  deriving DecidableEq

/-- The bytes with others from `off` on. -/
def patch (v : Bytes) (off : Nat) (data : Bytes) : Bytes :=
  v.take off ++ data ++ v.drop (off + data.length)

section

variable {v data : Bytes} {off : Nat}

theorem length_patch (h : off + data.length ≤ v.length) : (patch v off data).length = v.length := by
  simp only [patch, List.length_append, List.length_take, List.length_drop]
  omega

theorem take_patch (h : off ≤ v.length) :
    (patch v off data).take (off + data.length) = v.take off ++ data := by
  have hlen : (v.take off ++ data).length = off + data.length := by simp [h]
  rw [patch, ← hlen, List.take_left]

/-- The byte at the end. -/
theorem patch_last (h : v.length = off + 1) (b : UInt8) : patch v off [b] = v.take off ++ [b] := by
  rw [patch, List.length_singleton, ← h, List.drop_length, List.append_nil]

end

abbrev Strings := Store ZendString

namespace Strings

variable {s s' : Strings} {p q : Nat} {l : List Nat} {bytes data : Bytes}

/-! ## The engine -/

/-- `zend_string_init`. -/
def init (s : Strings) (data : Bytes) : Strings × Nat :=
  (s.alloc { len := data.length, val := data ++ [0] }, s.next)

/-- `n` bytes of a string from `off` on. -/
def bytesAt (s : Strings) (p off n : Nat) : Option Bytes :=
  (s.get p).bind fun z =>
    if off + n ≤ z.val.length then some ((z.val.drop off).take n) else none

/-- `memcpy`, or one assignment, to a string at `off`. -/
def copyTo (s : Strings) (p off : Nat) (data : Bytes) : Option Strings :=
  s.modify p fun z =>
    if off + data.length ≤ z.val.length then some { z with val := patch z.val off data } else none

/-- The size of a string changes to `len`; `fill` is what the new bytes hold. -/
def resize (s : Strings) (p len : Nat) (fill : Nat → UInt8) : Option (Strings × Nat) :=
  (s.get p).bind fun z => (s.free p).map fun s =>
    let val := z.val ++ (List.range (len + 1 - z.val.length)).map fill
    (s.alloc { len, val := val.take (len + 1) }, s.next)

/-- `zend_string_release`, unless it is `NULL`. -/
def release (s : Strings) (buffer : Option Nat) : Option Strings :=
  match buffer with
  | some p => s.free p
  | none => some s

/-! ## `src/buffer.c` -/

/-- `php_quic_buffer_append`. -/
def append (s : Strings) (buffer : Option Nat) (data : Bytes) (fill : Nat → UInt8) :
    Option (Strings × Option Nat) :=
  if data.length = 0 then some (s, buffer)
  else do
    let (s, p) := match buffer with
      | some p => (s, p)
      | none => init s []
    let z ← s.get p
    -- `zend_string_extend`
    let (s, p) ← resize s p (z.len + data.length) fill
    let s ← copyTo s p z.len data
    let s ← copyTo s p (z.len + data.length) [0]
    return (s, some p)

/-- `php_quic_buffer_read`, with the chunk. -/
def read (s : Strings) (buffer : Option Nat) (maxLen : Nat) :
    Option (Strings × Option Nat × Nat) :=
  match buffer with
  | none =>
    let (s, chunk) := init s []
    some (s, none, chunk)
  | some p => do
    let z ← s.get p
    if z.len = 0 ∨ maxLen = 0 then
      let (s, chunk) := init s []
      return (s, some p, chunk)
    else
    let readLen := if maxLen < z.len then maxLen else z.len
    let bytes ← bytesAt s p 0 readLen
    let (s, chunk) := init s bytes
    if readLen = z.len then
      let s ← s.free p
      let (s, p) := init s []
      return (s, some p, chunk)
    else
    -- `memmove`
    let rest ← bytesAt s p readLen (z.len - readLen)
    let s ← copyTo s p 0 rest
    -- `zend_string_truncate`
    let (s, p) ← resize s p (z.len - readLen) fun _ => 0
    let s ← copyTo s p (z.len - readLen) [0]
    return (s, some p, chunk)

/-! ## What a string holds -/

/-- The string at `p` is these bytes. -/
def Contains (s : Strings) (p : Nat) (bytes : Bytes) : Prop :=
  s.get p = some { len := bytes.length, val := bytes ++ [0] }

/-- A buffer is these bytes; `NULL` is none. -/
def Holds (s : Strings) (buffer : Option Nat) (bytes : Bytes) : Prop :=
  match buffer with
  | none => bytes = []
  | some p => Contains s p bytes

/-- What `l` has is as it was. -/
def Keeps (s s' : Strings) (l : List Nat) : Prop := ∀ q ∈ l, s'.get q = s.get q

theorem Keeps.trans {s₁ s₂ s₃ : Strings} (h : Keeps s₁ s₂ l) (h' : s₂.Keeps s₃ l) :
    Keeps s₁ s₃ l := fun q hq => (h' q hq).trans (h q hq)

theorem Keeps.contains (h : Keeps s s' l) (hq : q ∈ l) (hc : Contains s q bytes) :
    Contains s' q bytes := (h q hq).trans hc

/-! ## What the engine does -/

theorem init_owns (h : s.Owns l) (data : Bytes) : (init s data).1.Owns ((init s data).2 :: l) :=
  h.alloc _

theorem init_contains (s : Strings) (data : Bytes) :
    Contains (init s data).1 (init s data).2 data := s.get_alloc_self _

theorem init_keeps (h : s.Owns l) (data : Bytes) : Keeps s (init s data).1 l :=
  fun q hq => Store.get_alloc ((h.alive q).mpr hq)

theorem bytesAt_contains (h : Contains s p bytes) {off n : Nat} (hn : off + n ≤ bytes.length) :
    bytesAt s p off n = some ((bytes.drop off).take n) := by
  unfold bytesAt
  have hdrop : n ≤ (bytes.drop off).length := by
    rw [List.length_drop]
    omega
  rw [show s.get p = _ from h, Option.bind_some,
    if_pos (by rw [List.length_append]; omega)]
  rw [List.drop_append_of_le_length (by omega), List.take_append_of_le_length hdrop]

theorem release_spec {buffer : Option Nat} (h : s.Owns (buffer.toList ++ l)) :
    Defined (release s buffer) fun s' => s'.Owns l ∧ Keeps s s' l := by
  cases buffer with
  | none => exact .pure ⟨h, fun _ _ => rfl⟩
  | some p => exact Store.Owns.free h

/-- A copy into the block at `p`. -/
theorem copyTo_spec (h : s.Owns (p :: l)) {z : ZendString} (hz : s.get p = some z) {off : Nat}
    (hoff : off + data.length ≤ z.val.length) : Defined (copyTo s p off data) fun s' =>
      s'.Owns (p :: l) ∧ Keeps s s' l ∧
      s'.get p = some { z with val := patch z.val off data } := by
  refine (h.modify hz (if_pos hoff)).mono fun s' ⟨howns, hself, hrest⟩ => ⟨howns, ?_, hself⟩
  intro q hq
  refine hrest q fun hqp => ?_
  exact (List.nodup_cons.mp h.nodup).1 (hqp ▸ hq)

theorem resize_spec (h : s.Owns (p :: l)) {z : ZendString} (hz : s.get p = some z) (len : Nat)
    (fill : Nat → UInt8) : Defined (resize s p len fill) fun r =>
      r.1.Owns (r.2 :: l) ∧ Keeps s r.1 l ∧ r.1.get r.2 = some { len, val :=
        (z.val ++ (List.range (len + 1 - z.val.length)).map fill).take (len + 1) } := by
  refine .bind_some hz <| h.free.map fun s' ⟨howns, hrest⟩ => ⟨howns.alloc _, ?_, ?_⟩
  · intro q hq
    exact (Store.get_alloc ((howns.alive q).mpr hq)).trans (hrest q hq)
  · exact s'.get_alloc_self _

/-! ## The two functions -/

/-- `php_quic_buffer_append` keeps to `bufferAppend`, and `l` is untouched. -/
theorem append_spec {buffer : Option Nat} (h : s.Owns (buffer.toList ++ l))
    (hb : Holds s buffer bytes) (data : Bytes) (fill : Nat → UInt8) :
    Defined (append s buffer data fill) fun r => r.1.Owns (r.2.toList ++ l) ∧ Keeps s r.1 l ∧
      Holds r.1 r.2 (bufferAppend bytes data) ∧ (buffer.isSome → r.2.isSome) := by
  rw [bufferAppend_eq]
  unfold append
  split
  · rename_i hdata
    rw [List.length_eq_zero_iff.mp hdata, List.append_nil]
    exact .pure ⟨h, fun _ _ => rfl, hb, id⟩
  · -- there is a buffer, if only the empty one
    obtain ⟨s₀, p, heq, h₀, hkeeps, hp⟩ : ∃ s₀ p, (match buffer with
        | some p => (s, p)
        | none => init s []) = (s₀, p) ∧ s₀.Owns (p :: l) ∧ Keeps s s₀ l ∧ Contains s₀ p bytes := by
      cases buffer with
      | some p => exact ⟨s, p, rfl, h, fun _ _ => rfl, hb⟩
      | none =>
        cases (show bytes = [] from hb)
        exact ⟨_, _, rfl, init_owns h [], init_keeps h [], init_contains s []⟩
    rw [heq]
    refine .bind_some hp ?_
    refine (resize_spec h₀ hp (bytes.length + data.length) fill).bind
      fun ⟨s₁, p₁⟩ ⟨h₁, hkeeps₁, hp₁⟩ => ?_
    obtain ⟨v, hp₁, hlen, htake⟩ : ∃ v, s₁.get p₁ = some ⟨bytes.length + data.length, v⟩ ∧
        v.length = bytes.length + data.length + 1 ∧ v.take bytes.length = bytes := by
      refine ⟨_, hp₁, ?_, ?_⟩
      · simp only [List.length_take, List.length_append, List.length_map, List.length_range,
          List.length_singleton]
        omega
      · rw [List.take_take, Nat.min_eq_left (by omega), List.append_assoc, List.take_left]
    refine (copyTo_spec h₁ hp₁ (by simp only; omega)).bind fun s₂ ⟨h₂, hkeeps₂, hp₂⟩ => ?_
    have hlen₂ : (patch v bytes.length data).length = bytes.length + data.length + 1 :=
      (length_patch (by omega)).trans hlen
    refine (copyTo_spec h₂ hp₂ (Nat.le_of_eq hlen₂.symm)).bind fun s₃ ⟨h₃, hkeeps₃, hp₃⟩ => ?_
    refine .pure ⟨h₃, ((hkeeps.trans hkeeps₁).trans hkeeps₂).trans hkeeps₃, ?_, fun _ => rfl⟩
    show s₃.get p₁ = _
    rw [hp₃]
    simp only
    rw [patch_last hlen₂, take_patch (by omega), htake, List.length_append]

/-- `php_quic_buffer_read` keeps to `bufferRead`; the chunk is a string of its own. -/
theorem read_spec {buffer : Option Nat} (h : s.Owns (buffer.toList ++ l))
    (hb : Holds s buffer bytes) (maxLen : Nat) :
    Defined (read s buffer maxLen) fun r => r.1.Owns (r.2.1.toList ++ r.2.2 :: l) ∧
      Keeps s r.1 l ∧ Holds r.1 r.2.1 (bufferRead bytes maxLen).2 ∧
      Contains r.1 r.2.2 (bufferRead bytes maxLen).1 := by
  cases buffer with
  | none =>
    cases (show bytes = [] from hb)
    exact .pure ⟨init_owns h [], init_keeps h [], rfl, init_contains s []⟩
  | some p =>
  refine .bind_some hb ?_
  simp only
  unfold bufferRead
  split
  · -- nothing to read
    refine .pure ⟨(init_owns h []).perm (List.Perm.swap _ _ _), ?_, ?_, init_contains s []⟩
    · exact fun q hq => init_keeps h [] q (List.mem_cons_of_mem _ hq)
    · exact (init_keeps h []).contains List.mem_cons_self hb
  · rename_i hsome
    generalize hread : (if maxLen < bytes.length then maxLen else bytes.length) = readLen
    have hle : readLen ≤ bytes.length := by
      rw [← hread]
      split <;> omega
    refine .bind_some (bytesAt_contains hb (by omega)) ?_
    rw [List.drop_zero]
    have h₁ := init_owns h (bytes.take readLen)
    have hk₁ := init_keeps h (bytes.take readLen)
    have hchunk := init_contains s (bytes.take readLen)
    generalize init s (bytes.take readLen) = r at h₁ hk₁ hchunk ⊢
    obtain ⟨s₁, chunk⟩ := r
    replace hb := hk₁.contains List.mem_cons_self hb
    replace h₁ := h₁.perm (List.Perm.swap _ _ _)
    have hk : Keeps s s₁ l := fun q hq => hk₁ q (List.mem_cons_of_mem _ hq)
    split
    · -- all of it: the buffer is a new string
      rename_i hall
      refine h₁.free.bind fun s₂ ⟨h₂, hk₂⟩ => .pure ⟨init_owns h₂ [], ?_, ?_, ?_⟩
      · have hk₃ : Keeps s₁ _ (chunk :: l) := Keeps.trans hk₂ (init_keeps h₂ [])
        exact hk.trans fun q hq => hk₃ q (List.mem_cons_of_mem _ hq)
      · show Holds _ _ (bytes.drop readLen)
        rw [List.drop_of_length_le (Nat.le_of_eq hall.symm)]
        exact init_contains s₂ []
      · exact (Keeps.trans hk₂ (init_keeps h₂ [])).contains List.mem_cons_self hchunk
    · -- the rest moves to the front
      rename_i hpart
      have hlt : readLen < bytes.length := by omega
      refine .bind_some (bytesAt_contains hb (by omega)) ?_
      have htake : (bytes.drop readLen).take (bytes.length - readLen) = bytes.drop readLen :=
        List.take_of_length_le (Nat.le_of_eq List.length_drop)
      rw [htake]
      have hlen : 0 + (bytes.drop readLen).length ≤ (bytes ++ [0]).length := by
        rw [List.length_append, List.length_drop]
        omega
      refine (copyTo_spec h₁ hb hlen).bind fun s₂ ⟨h₂, hk₂, hp₂⟩ => ?_
      refine (resize_spec h₂ hp₂ (bytes.length - readLen) _).bind fun ⟨s₃, p₃⟩ ⟨h₃, hk₃, hp₃⟩ => ?_
      obtain ⟨v, hp₃, hv, hfront⟩ : ∃ v, s₃.get p₃ = some ⟨bytes.length - readLen, v⟩ ∧
          v.length = bytes.length - readLen + 1 ∧
          v.take (bytes.length - readLen) = bytes.drop readLen := by
        have hfull := length_patch hlen
        have hrest : (bytes.drop readLen).length = bytes.length - readLen := List.length_drop
        refine ⟨_, hp₃, ?_, ?_⟩
        · simp only [List.length_take, List.length_append, hfull, List.length_singleton]
          omega
        · rw [List.take_take, Nat.min_eq_left (by omega),
            List.take_append_of_le_length (by rw [hfull, List.length_append]; omega), ← hrest]
          have hpatch : (patch (bytes ++ [0]) 0 (bytes.drop readLen)).take (0 + _) = _ :=
            take_patch (Nat.zero_le _)
          rwa [Nat.zero_add, List.take_zero, List.nil_append] at hpatch
      refine (copyTo_spec h₃ hp₃ (Nat.le_of_eq hv.symm)).bind fun s₄ ⟨h₄, hk₄, hp₄⟩ => ?_
      have hk' : Keeps s₁ s₄ (chunk :: l) := (Keeps.trans hk₂ hk₃).trans hk₄
      refine .pure ⟨h₄, hk.trans fun q hq => hk' q (List.mem_cons_of_mem _ hq), ?_,
        hk'.contains List.mem_cons_self hchunk⟩
      show s₄.get p₃ = _
      rw [hp₄]
      simp only
      rw [patch_last hv, hfront, List.length_drop]

end Strings

end PhpQuic
