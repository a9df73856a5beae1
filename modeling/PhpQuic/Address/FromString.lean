import PhpQuic.Address
import PhpQuic.Lib.CString

/-!
# `Address::fromString`

`php_quic_address_parse_endpoint` and `fromString` of `src/address.c`. A pointer into the text is a
position. The length of the text counts the bytes behind a NUL; the searches and `strtol` do not see
them.

* `parseEndpoint_eq_some`: what is accepted, in terms of the text up to its first NUL: a host, a
  separator and a port text that `strtol` reads to its end, without brackets or with them.
* `fromString_grammar_iff`: the accepted texts that are endpoints as a whole, with a port of digits
  only, are those without a NUL in which a digit follows the last colon.
* `fromString_endpoint`: a printed host and port are read back.
-/

namespace PhpQuic

open CString

/-! ## The functions of the source -/

/-- The byte at a position of `ZSTR_VAL`; a NUL follows the last one. -/
def charAt (value : Bytes) (i : Nat) : UInt8 := value[i]?.getD 0

/-- `php_quic_address_parse_endpoint` up to the port: the position of the host, its length, and the
position of the port. -/
def endpointParts (value : Bytes) : Option (Nat × Nat × Nat) :=
  -- 91 is `'['`, 93 is `']'`, 58 is `':'`
  if charAt value 0 = 91 then
    match strchr 93 (cString (value.drop 1)) with
    | none => none
    | some hostLen =>
      let closing := 1 + hostLen
      if hostLen = 0 then none
      else if closing + 1 ≥ value.length ∨ charAt value (closing + 1) ≠ 58 then none
      else some (1, hostLen, closing + 2)
  else
    match strrchr 58 (cString value) with
    | none => none
    | some sep =>
      if sep = 0 then none
      else if strchr 58 (cString value) ≠ some sep then none
      else some (0, sep, sep + 1)

/-- `php_quic_address_parse_endpoint`; `none` is `FAILURE`. -/
def parseEndpoint (value : Bytes) : Option (Bytes × Int) :=
  if value.length = 0 then none
  else
    match endpointParts value with
    | none => none
    | some (hostStart, hostLen, portStart) =>
      -- `*port_start` is looked at again behind `strtol`, with the same outcome
      if charAt value portStart = 0 then none
      else
        let parsed := strtol (cString (value.drop portStart))
        if parsed.2 ≠ [] then none
        else if parsed.1 < 0 ∨ parsed.1 > 65535 then none
        else some ((value.drop hostStart).take hostLen, parsed.1)

/-- An `InvalidArgumentException`. -/
structure InvalidArgument where
  message : String
  deriving DecidableEq

namespace Address

/-- `Address::fromString`. -/
def fromString (endpoint : Bytes) : Except InvalidArgument Address :=
  match parseEndpoint endpoint with
  | none =>
    .error ⟨"Address::fromString [endpoint]: invalid endpoint format, expected host:port or [ipv6]:port"⟩
  | some (host, port) => .ok { host, port }

end Address

/-! ## Texts with a NUL -/

variable {s t h d rest : Bytes} {p : Int} {parts : Nat × Nat × Nat}

/-- A text is its C string, and nothing or a NUL and what follows it. -/
theorem exists_rest (s : Bytes) :
    ∃ rest, s = cString s ++ rest ∧ (0 : UInt8) ∉ cString s ∧ rest.head?.getD 0 = 0 := by
  refine ⟨s.dropWhile (· ≠ 0), List.takeWhile_append_dropWhile.symm, ?_, ?_⟩
  · intro hmem
    have h := List.mem_takeWhile_imp hmem
    simp at h
  · cases hd : s.dropWhile (· ≠ 0) with
    | nil => rfl
    | cons b l =>
      have h := List.head?_dropWhile_not (· ≠ 0) s
      rw [hd] at h
      simpa using h

theorem cString_append (ht : (0 : UInt8) ∉ t) (hrest : rest.head?.getD 0 = 0) :
    cString (t ++ rest) = t := by
  unfold cString
  rw [List.takeWhile_append_of_pos]
  · cases rest with
    | nil => simp
    | cons b l =>
      have hb : b = 0 := hrest
      simp [hb]
  · intro b hb
    simp only [ne_eq, decide_eq_true_eq]
    rintro rfl
    exact ht hb

theorem charAt_append (pre l : Bytes) : charAt (pre ++ l) pre.length = l.head?.getD 0 := by
  unfold charAt
  rw [List.getElem?_append_right (Nat.le_refl _), Nat.sub_self, List.head?_eq_getElem?]

theorem charAt_zero (s : Bytes) : charAt s 0 = s.head?.getD 0 := charAt_append [] s

/-- What the C functions see from a position on. -/
theorem from_position (pre : Bytes) (hd : (0 : UInt8) ∉ d) (hrest : rest.head?.getD 0 = 0) :
    cString ((pre ++ (d ++ rest)).drop pre.length) = d ∧
      (charAt (pre ++ (d ++ rest)) pre.length = 0 ↔ d = []) := by
  rw [List.drop_left, charAt_append]
  refine ⟨cString_append hd hrest, ?_⟩
  cases d with
  | nil => simpa using hrest
  | cons b d =>
    have hb : b ≠ 0 := fun h => hd (h ▸ List.mem_cons_self)
    simpa using hb

/-! ## What is accepted -/

/-- The text is split into the host `h` and the port text `d`, without brackets or with them. -/
def Splits (t h d : Bytes) : Prop :=
  (t = h ++ 58 :: d ∧ h ≠ [] ∧ h.head? ≠ some 91 ∧ 58 ∉ h ∧ 58 ∉ d) ∨
    (t = 91 :: h ++ 93 :: 58 :: d ∧ h ≠ [] ∧ 93 ∉ h)

/-- `strtol` reads the port text to its end, and the port is in range. -/
def PortText (d : Bytes) (p : Int) : Prop := d ≠ [] ∧ strtol d = (p, []) ∧ 0 ≤ p ∧ p ≤ 65535

/-- The positions `parts` of the text `s` are those of the host `h` and the port text `d`. -/
def PartsOf (s h d : Bytes) (parts : Nat × Nat × Nat) : Prop :=
  (s.drop parts.1).take parts.2.1 = h ∧ cString (s.drop parts.2.2) = d ∧
    (charAt s parts.2.2 = 0 ↔ d = [])

theorem partsOf_plain (hd : (0 : UInt8) ∉ d) (hrest : rest.head?.getD 0 = 0) :
    PartsOf (h ++ 58 :: d ++ rest) h d (0, h.length, h.length + 1) := by
  have e : h ++ 58 :: d ++ rest = (h ++ [58]) ++ (d ++ rest) := by simp
  have hport := from_position (h ++ [58]) hd hrest
  rw [List.length_append, List.length_singleton] at hport
  rw [e]
  exact ⟨by simp, hport.1, hport.2⟩

theorem partsOf_brackets (hd : (0 : UInt8) ∉ d) (hrest : rest.head?.getD 0 = 0) :
    PartsOf (91 :: h ++ 93 :: 58 :: d ++ rest) h d (1, h.length, 1 + h.length + 2) := by
  have e : 91 :: h ++ 93 :: 58 :: d ++ rest = (91 :: h ++ [93, 58]) ++ (d ++ rest) := by simp
  have hport := from_position (91 :: h ++ [93, 58]) hd hrest
  have hlen : (91 :: h ++ [93, 58]).length = 1 + h.length + 2 := by simp; omega
  rw [hlen] at hport
  rw [e]
  exact ⟨by simp, hport.1, hport.2⟩

/-- The check behind the closing bracket: a colon stands there, within the text. -/
theorem closing_check {post : Bytes} (hrest : rest.head?.getD 0 = 0) :
    (1 + h.length + 1 ≥ (91 :: h ++ 93 :: post ++ rest).length ∨
        charAt (91 :: h ++ 93 :: post ++ rest) (1 + h.length + 1) ≠ 58) ↔
      post.head? ≠ some 58 := by
  have e : 91 :: h ++ 93 :: post ++ rest = (91 :: h ++ [93]) ++ (post ++ rest) := by simp
  have hlen : (91 :: h ++ [93]).length = 1 + h.length + 1 := by simp; omega
  have hchar := charAt_append (91 :: h ++ [93]) (post ++ rest)
  rw [hlen] at hchar
  rw [e, hchar, List.length_append, hlen]
  cases post with
  | nil =>
    simp only [List.nil_append, hrest, List.head?_nil]
    simp
  | cons b post =>
    simp only [List.cons_append, List.length_cons, List.head?_cons, Option.getD_some, ne_eq,
      Option.some.injEq, or_iff_right_iff_imp]
    omega

theorem endpointParts_of_splits (hsplit : Splits (cString s) h d) :
    ∃ parts, endpointParts s = some parts ∧ PartsOf s h d parts := by
  obtain ⟨rest, hs, hnul, hrest⟩ := exists_rest s
  rcases hsplit with ⟨ht, hne, hfirst, hh, hd⟩ | ⟨ht, hne, hh⟩
  · rw [ht] at hs hnul
    have hdnul : (0 : UInt8) ∉ d := fun h0 =>
      hnul (List.mem_append_right h (List.mem_cons_of_mem 58 h0))
    obtain ⟨hchr, hrchr⟩ := strchr_eq_strrchr hh hd
    have hlen : h.length ≠ 0 := by simpa using hne
    have h91 : ¬charAt s 0 = 91 := by
      rw [charAt_zero, hs]
      cases h with
      | nil => exact absurd rfl hne
      | cons b h => simpa using hfirst
    refine ⟨(0, h.length, h.length + 1), ?_, hs ▸ partsOf_plain hdnul hrest⟩
    simp [endpointParts, h91, ht, hchr, hrchr, hlen]
  · rw [ht] at hs hnul
    have hdnul : (0 : UInt8) ∉ d := fun h0 => hnul (by simp [h0])
    have hlen : h.length ≠ 0 := by simpa using hne
    have h91 : charAt s 0 = 91 := by
      rw [charAt_zero, hs]
      rfl
    have hdrop : cString (s.drop 1) = h ++ 93 :: 58 :: d := by
      rw [hs]
      exact cString_append (fun h0 => hnul (List.mem_cons_of_mem 91 h0)) hrest
    have hchr : strchr 93 (h ++ 93 :: 58 :: d) = some h.length :=
      strchr_eq_some.mpr ⟨h, 58 :: d, rfl, hh, rfl⟩
    have hclosing : ¬(1 + h.length + 1 ≥ s.length ∨ charAt s (1 + h.length + 1) ≠ 58) := by
      rw [hs, closing_check hrest]
      simp
    refine ⟨(1, h.length, 1 + h.length + 2), ?_, hs ▸ partsOf_brackets hdnul hrest⟩
    unfold endpointParts
    rw [if_pos h91, hdrop, hchr]
    simp only []
    rw [if_neg hlen, if_neg hclosing]

/-- The form with brackets. -/
theorem brackets_of_endpointParts (h91 : charAt s 0 = 91) (hparts : endpointParts s = some parts) :
    ∃ h d, Splits (cString s) h d ∧ PartsOf s h d parts := by
  obtain ⟨rest, hs, hnul, hrest⟩ := exists_rest s
  rw [endpointParts, if_pos h91] at hparts
  rw [charAt_zero] at h91
  cases s with
  | nil => cases h91
  | cons b l =>
    obtain rfl : b = 91 := h91
    have ht : cString (91 :: l) = 91 :: cString l := rfl
    rw [ht] at hs hnul
    have hl : (91 :: l).drop 1 = l := rfl
    rw [hl] at hparts
    cases hchr : strchr 93 (cString l) with
    | none => simp [hchr] at hparts
    | some hostLen =>
      simp only [hchr] at hparts
      obtain ⟨h, post, hsplit, hh, rfl⟩ := strchr_eq_some.mp hchr
      rw [hsplit] at hs hnul
      have hs' : 91 :: l = 91 :: h ++ 93 :: post ++ rest := hs
      split at hparts
      · cases hparts
      · rename_i hlen
        split at hparts
        · cases hparts
        · rename_i hcolon
          rw [hs', closing_check hrest] at hcolon
          obtain ⟨d, rfl⟩ : ∃ d, post = 58 :: d := by
            cases post with
            | nil => simp at hcolon
            | cons x d => exact ⟨d, by simp at hcolon; rw [hcolon]⟩
          obtain rfl := Option.some.inj hparts
          have hdnul : (0 : UInt8) ∉ d := fun h0 => hnul (by simp [h0])
          refine ⟨h, d, .inr ⟨?_, ?_, hh⟩, hs' ▸ partsOf_brackets hdnul hrest⟩
          · rw [ht, hsplit]
            rfl
          · simpa using hlen

/-- The form without brackets. -/
theorem plain_of_endpointParts (h91 : ¬charAt s 0 = 91) (hparts : endpointParts s = some parts) :
    ∃ h d, Splits (cString s) h d ∧ PartsOf s h d parts := by
  obtain ⟨rest, hs, hnul, hrest⟩ := exists_rest s
  rw [endpointParts, if_neg h91] at hparts
  cases hrchr : strrchr 58 (cString s) with
  | none => simp [hrchr] at hparts
  | some sep =>
    simp only [hrchr] at hparts
    split at hparts
    · cases hparts
    · rename_i hsep
      split at hparts
      · cases hparts
      · rename_i hfirst
        obtain rfl := Option.some.inj hparts
        obtain ⟨h, d, hsplit, hd, rfl⟩ := strrchr_eq_some.mp hrchr
        -- the first colon is the last one
        obtain ⟨h', d', hsplit', hh', hlen⟩ := strchr_eq_some.mp (not_not.mp hfirst)
        obtain ⟨rfl, -⟩ := List.append_inj (hsplit.symm.trans hsplit') hlen.symm
        have hne : h ≠ [] := by simpa using hsep
        rw [hsplit] at hs hnul
        have hdnul : (0 : UInt8) ∉ d := fun h0 =>
          hnul (List.mem_append_right h (List.mem_cons_of_mem 58 h0))
        refine ⟨h, d, .inl ⟨hsplit, hne, ?_, hh', hd⟩, hs ▸ partsOf_plain hdnul hrest⟩
        rw [charAt_zero, hs] at h91
        cases h with
        | nil => exact absurd rfl hne
        | cons b h => simpa using h91

theorem splits_of_endpointParts (hparts : endpointParts s = some parts) :
    ∃ h d, Splits (cString s) h d ∧ PartsOf s h d parts := by
  by_cases h91 : charAt s 0 = 91
  · exact brackets_of_endpointParts h91 hparts
  · exact plain_of_endpointParts h91 hparts

/-- What is accepted is decided by the text up to its first NUL. -/
theorem parseEndpoint_eq_some :
    parseEndpoint s = some (h, p) ↔ ∃ d, Splits (cString s) h d ∧ PortText d p := by
  unfold parseEndpoint
  constructor
  · intro heq
    split at heq
    · cases heq
    · split at heq
      · cases heq
      · rename_i hparts
        obtain ⟨h', d, hsplit, hhost, htext, hport⟩ := splits_of_endpointParts hparts
        refine ⟨d, ?_⟩
        simp only [hhost, htext, hport] at heq
        split at heq
        · cases heq
        · rename_i hne
          split at heq
          · cases heq
          · rename_i hend
            split at heq
            · cases heq
            · rename_i hrange
              obtain ⟨rfl, rfl⟩ := Prod.mk.inj (Option.some.inj heq)
              exact ⟨hsplit, hne, Prod.ext rfl (not_not.mp hend), by omega, by omega⟩
  · rintro ⟨d, hsplit, hne, hread, hlow, hhigh⟩
    obtain ⟨parts, hparts, hhost, htext, hport⟩ := endpointParts_of_splits hsplit
    have hs : ¬s.length = 0 := by
      intro h0
      obtain rfl := List.length_eq_zero_iff.mp h0
      cases hparts
    have hrange : ¬(p < 0 ∨ p > 65535) := by omega
    rw [if_neg hs, hparts]
    simp only [hhost, htext, hport, hread, hne, hrange, if_false, ne_eq, not_true_eq_false]

theorem fromString_eq_ok :
    Address.fromString s = .ok { host := h, port := p } ↔
      ∃ d, Splits (cString s) h d ∧ PortText d p := by
  rw [← parseEndpoint_eq_some]
  unfold Address.fromString
  cases parseEndpoint s with
  | none => simp
  | some r =>
    obtain ⟨host, port⟩ := r
    simp

/-! ## The grammar -/

/-- A non-empty text of digits, with its value. -/
def DigitText (d : Bytes) (p : Int) : Prop :=
  d ≠ [] ∧ (∀ b ∈ d, isDigit b = true) ∧ (value d : Int) = p

/-- The whole text is `host:port` or `[host]:port`. -/
def IsEndpoint (s h : Bytes) (p : Int) : Prop :=
  ((∃ d, s = h ++ 58 :: d ∧ h ≠ [] ∧ h.head? ≠ some 91 ∧ 58 ∉ h ∧ DigitText d p) ∨
    (∃ d, s = 91 :: h ++ 93 :: 58 :: d ∧ h ≠ [] ∧ 93 ∉ h ∧ DigitText d p)) ∧
  0 ≤ p ∧ p ≤ 65535

/-- A digit follows the last colon of the text. -/
def DigitAfterLastColon (s : Bytes) : Prop :=
  ∃ front b post, s = front ++ 58 :: b :: post ∧ 58 ∉ b :: post ∧ isDigit b = true

theorem not_isDigit_of_mem {d : Bytes} {b : UInt8} (hall : ∀ b ∈ d, isDigit b = true)
    (hb : isDigit b = false) : b ∉ d := by
  intro hmem
  rw [hall b hmem] at hb
  cases hb

/-- The last colon of a text is the one before its port text. -/
theorem Splits.front (hsplit : Splits t h d) : ∃ front, t = front ++ 58 :: d := by
  rcases hsplit with ⟨rfl, -⟩ | ⟨rfl, -⟩
  · exact ⟨h, rfl⟩
  · exact ⟨91 :: h ++ [93], by simp⟩

theorem Splits.host_subset (hsplit : Splits t h d) : h ⊆ t := by
  rcases hsplit with ⟨rfl, -⟩ | ⟨rfl, -⟩
  · simp
  · intro b hb
    simp [hb]

/-- A port text that starts with a digit is all digits, and the port is their value. -/
theorem PortText.digitText (hport : PortText d p) {b : UInt8} {post : Bytes} (hd : d = b :: post)
    (hb : isDigit b = true) : DigitText d p := by
  obtain ⟨hne, hread, hlow, hhigh⟩ := hport
  have hall : ∀ x ∈ d, isDigit x = true := by
    rw [hd] at hread ⊢
    exact digits_of_strtol hb (by rw [hread])
  rw [strtol_digits hne hall] at hread
  have hp := (Prod.mk.inj hread).1
  have hclamp := clamp_of_le (n := value d) (by rw [hp]; exact hhigh)
  exact ⟨hne, hall, hclamp.symm.trans hp⟩

/-- An accepted text is an endpoint as a whole if and only if it has no NUL and a digit follows its
last colon: what `strtol` skips before the digits, white space and a sign, is accepted, and so is
whatever follows a NUL. -/
theorem fromString_grammar_iff (haccept : Address.fromString s = .ok { host := h, port := p }) :
    IsEndpoint s h p ↔ 0 ∉ s ∧ DigitAfterLastColon s := by
  obtain ⟨d, hsplit, hport⟩ := fromString_eq_ok.mp haccept
  have hcolon : 58 ∉ d := colon_not_mem_of_strtol (by rw [hport.2.1])
  constructor
  · rintro ⟨hform, -⟩
    obtain ⟨-, -, hnul, -⟩ := exists_rest s
    have hhost : 0 ∉ h := fun h0 => hnul (hsplit.host_subset h0)
    have hend : ∀ d', DigitText d' p →
        0 ∉ d' ∧ 58 ∉ d' ∧ ∃ b post, d' = b :: post ∧ isDigit b = true := by
      rintro d' ⟨hne, hall, -⟩
      obtain ⟨b, post, rfl⟩ := List.exists_cons_of_ne_nil hne
      exact ⟨not_isDigit_of_mem hall (by decide), not_isDigit_of_mem hall (by decide),
        b, post, rfl, hall b List.mem_cons_self⟩
    rcases hform with ⟨d', rfl, -, -, -, hdigits⟩ | ⟨d', rfl, -, -, hdigits⟩
    · obtain ⟨h0, h58, b, post, rfl, hb⟩ := hend d' hdigits
      exact ⟨by simpa [hhost] using h0, h, b, post, rfl, h58, hb⟩
    · obtain ⟨h0, h58, b, post, rfl, hb⟩ := hend d' hdigits
      exact ⟨by simpa [hhost] using h0, 91 :: h ++ [93], b, post, by simp, h58, hb⟩
  · rintro ⟨hnul, front, b, post, hlast, hpost, hb⟩
    rw [(cString_eq_iff s).mpr hnul] at hsplit
    obtain ⟨front', hfront⟩ := hsplit.front
    obtain ⟨-, hd⟩ := split_last_inj hcolon hpost (hfront.symm.trans hlast)
    have hdigits := hport.digitText hd hb
    refine ⟨?_, hport.2.2⟩
    rcases hsplit with ⟨ht, hne, hfirst, hh, -⟩ | ⟨ht, hne, hh⟩
    · exact .inl ⟨d, ht, hne, hfirst, hh, hdigits⟩
    · exact .inr ⟨d, ht, hne, hh, hdigits⟩

/-- `"127.0.0.1:4433"`. -/
theorem fromString_grammar_loopback :
    IsEndpoint [49, 50, 55, 46, 48, 46, 48, 46, 49, 58, 52, 52, 51, 51]
      [49, 50, 55, 46, 48, 46, 48, 46, 49] 4433 :=
  (fromString_grammar_iff (by decide)).mpr
    ⟨by decide, [49, 50, 55, 46, 48, 46, 48, 46, 49], 52, [52, 51, 51], rfl, by decide, by decide⟩

/-- White space before the port, and bytes behind a NUL: `"a: 80"` and `"a:80\0b"` are accepted. -/
theorem fromString_accepts_space :
    (Address.fromString [97, 58, 32, 56, 48] = .ok { host := [97], port := 80 } ∧
        ¬IsEndpoint [97, 58, 32, 56, 48] [97] 80) ∧
      Address.fromString [97, 58, 56, 48, 0, 98] = .ok { host := [97], port := 80 } ∧
        ¬IsEndpoint [97, 58, 56, 48, 0, 98] [97] 80 := by
  refine ⟨⟨by decide, ?_⟩, by decide, ?_⟩
  · rintro ⟨⟨d, heq, -, -, -, -, hall, -⟩ | ⟨d, heq, -⟩, -⟩
    · obtain rfl := (List.cons.inj (List.cons.inj heq).2).2
      exact absurd (hall 32 (by simp)) (by decide)
    · cases heq
  · rintro ⟨⟨d, heq, -, -, -, -, hall, -⟩ | ⟨d, heq, -⟩, -⟩
    · obtain rfl := (List.cons.inj (List.cons.inj heq).2).2
      exact absurd (hall 0 (by simp)) (by decide)
    · cases heq

/-! ## Printed ports -/

/-- A digit as it is printed. -/
theorem digitChar_byte {n : Nat} (hn : n < 10) :
    isDigit n.digitChar.toNat.toUInt8 = true ∧ n.digitChar.toNat.toUInt8.toNat - 48 = n := by
  have h : ∀ n : Fin 10, isDigit n.val.digitChar.toNat.toUInt8 = true ∧
      n.val.digitChar.toNat.toUInt8.toNat - 48 = n.val := by decide
  exact h ⟨n, hn⟩

theorem decimalNat_ne_nil (n : Nat) : decimalNat n ≠ [] := by
  simp [decimalNat, Nat.toDigits_ne_nil]

theorem decimalNat_eq (n : Nat) :
    decimalNat n =
      (if n < 10 then [] else decimalNat (n / 10)) ++ [(n % 10).digitChar.toNat.toUInt8] := by
  unfold decimalNat
  rw [Nat.toDigits_eq_if (by decide)]
  split
  · rename_i hn
    simp [Nat.mod_eq_of_lt hn]
  · simp

/-- A printed number is all digits, and their value is the number. -/
theorem decimalNat_spec (n : Nat) :
    (∀ b ∈ decimalNat n, isDigit b = true) ∧ value (decimalNat n) = n := by
  induction n using Nat.strongRecOn with
  | _ n ih =>
    rw [decimalNat_eq]
    obtain ⟨hdigit, hval⟩ := digitChar_byte (Nat.mod_lt n (by decide : 10 > 0))
    split
    · rename_i hn
      rw [value_append, hval]
      refine ⟨by simpa using hdigit, ?_⟩
      rw [Nat.mod_eq_of_lt hn]
      simp [value]
    · obtain ⟨hall, hhead⟩ := ih (n / 10) (by omega)
      rw [value_append, hval, hhead]
      refine ⟨?_, by omega⟩
      intro b hb
      rcases List.mem_append.mp hb with hb | hb
      · exact hall b hb
      · rw [List.mem_singleton.mp hb]
        exact hdigit

theorem decimalNat_inj {m n : Nat} (heq : decimalNat m = decimalNat n) : m = n := by
  have h := congrArg value heq
  rwa [(decimalNat_spec m).2, (decimalNat_spec n).2] at h

theorem not_mem_decimalNat {b : UInt8} (hb : isDigit b = false) (n : Nat) : b ∉ decimalNat n :=
  not_isDigit_of_mem (decimalNat_spec n).1 hb

/-- A printed number is digits, perhaps behind a sign. -/
theorem not_mem_decimal {b : UInt8} (hb : isDigit b = false) (hsign : b ≠ 45) (n : Int) :
    b ∉ decimal n := by
  unfold decimal
  split
  · simp [hsign, not_mem_decimalNat hb]
  · exact not_mem_decimalNat hb n.natAbs

/-- Different numbers are printed differently. -/
theorem decimal_inj {m n : Int} (heq : decimal m = decimal n) : m = n := by
  have hsign : ∀ k l : Nat, 45 :: decimalNat k ≠ decimalNat l := by
    intro k l h
    exact not_mem_decimalNat (b := 45) rfl l (h ▸ List.mem_cons_self)
  unfold decimal at heq
  split at heq
  · split at heq
    · have h := decimalNat_inj (List.cons.inj heq).2
      omega
    · exact absurd heq (hsign m.natAbs n.natAbs)
  · split at heq
    · exact absurd heq.symm (hsign n.natAbs m.natAbs)
    · have h := decimalNat_inj heq
      omega

/-- A printed port with zeros in front is a port text. -/
theorem portText_decimal {n : Nat} (hn : n ≤ 65535) (zeros : Nat) :
    PortText (List.replicate zeros 48 ++ decimalNat n) n := by
  obtain ⟨hall, hval⟩ := decimalNat_spec n
  have hne : List.replicate zeros 48 ++ decimalNat n ≠ [] := by simp [decimalNat_ne_nil n]
  have hdigits : ∀ b ∈ List.replicate zeros 48 ++ decimalNat n, isDigit b = true := by
    intro b hb
    rcases List.mem_append.mp hb with hb | hb
    · rw [(List.mem_replicate.mp hb).2]
      decide
    · exact hall b hb
  refine ⟨hne, ?_, by omega, by omega⟩
  rw [strtol_digits hne hdigits, value_zeros, hval, clamp_nat hn]

/-- A host and a port that are printed are read back, with any number of zeros before the port. -/
theorem fromString_endpoint (hne : h ≠ []) (hnul : 0 ∉ h) {n : Nat} (hn : n ≤ 65535)
    (zeros : Nat) :
    (58 ∉ h → h.head? ≠ some 91 →
        Address.fromString (h ++ 58 :: (List.replicate zeros 48 ++ decimalNat n)) =
          .ok { host := h, port := n }) ∧
      (93 ∉ h →
        Address.fromString (91 :: h ++ 93 :: 58 :: (List.replicate zeros 48 ++ decimalNat n)) =
          .ok { host := h, port := n }) := by
  have hport := portText_decimal hn zeros
  generalize List.replicate zeros 48 ++ decimalNat n = d at hport
  have hend : (strtol d).2 = [] := by rw [hport.2.1]
  have hd : 0 ∉ d := by
    intro h0
    have h := mem_of_strtol hend h0
    exact absurd h (by decide)
  constructor
  · intro hcolon hfirst
    rw [fromString_eq_ok, (cString_eq_iff _).mpr (by simp [hnul, hd])]
    exact ⟨d, .inl ⟨rfl, hne, hfirst, hcolon, colon_not_mem_of_strtol hend⟩, hport⟩
  · intro hbracket
    rw [fromString_eq_ok, (cString_eq_iff _).mpr (by simp [hnul, hd])]
    exact ⟨d, .inr ⟨rfl, hne, hbracket⟩, hport⟩

/-- `"[::1]:008443"`. -/
theorem fromString_endpoint_brackets :
    Address.fromString (91 :: [58, 58, 49] ++ 93 :: 58 :: (List.replicate 2 48 ++ decimalNat 8443)) =
      .ok { host := [58, 58, 49], port := 8443 } :=
  (fromString_endpoint (by decide) (by decide) (by decide) 2).2 (by decide)

end PhpQuic
