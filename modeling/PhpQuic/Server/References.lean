import PhpQuic.Server.Accept

/-!
# The references that `accept` takes

`accept` takes a reference to each of the strings of the configuration, and makes a string for a
missing `alpn`. The strings are objects that other holders count references to as well, so the
counts are a function of the object (`α`), and two of a call's strings can be one object. To an
interned string no references are counted.

* `accept_refs`: what a call adds to the counts. It gives the strings back unless the datagram ends
  the call at `initial` or `decode`.
* `references_balanced_iff`: any sequence of calls leaves the counts as they were if and only if no
  call ends there that has a string to count. `references_leak`: an empty datagram.
-/

namespace PhpQuic

/-- The datagram passes the stages `initial` and `decode`. -/
def AcceptAnswers.decodes (a : AcceptAnswers) (initial : Datagram) : Bool :=
  decide (initial.payload.length ≠ 0) && (a.decode.rv.filter (· ≠ .versionNegotiation)).isNone &&
    a.supportedVersion && decide (a.decode.dcidlen ≤ 20 ∧ a.decode.scidlen ≤ 20)

/-- No reference is counted: `alpn` is given, and all three strings are interned. -/
def ServerConfig.uncounted (config : ServerConfig) : Bool :=
  config.interned.certFile && config.interned.keyFile && config.alpn.isSome && config.interned.alpn

namespace StringRefs

variable (config : ServerConfig)

theorem release_copy (r : StringRefs) : release config (copy config r) = r := by
  unfold release copy zendStringRelease zendStringCopy
  cases config.alpn with
  | none => cases config.interned.certFile <;> cases config.interned.keyFile <;> simp
  | some alpn =>
    cases config.interned.certFile <;> cases config.interned.keyFile <;>
      cases config.interned.alpn <;> simp

/-- The references are counted once each, or not at all. -/
theorem copy_nonneg :
    0 ≤ (copy config {}).certFile ∧ 0 ≤ (copy config {}).keyFile ∧ 0 ≤ (copy config {}).alpn := by
  unfold copy zendStringCopy
  refine ⟨?_, ?_, ?_⟩
  · simp only; split <;> decide
  · simp only; split <;> decide
  · cases config.alpn with
    | none => exact Int.one_nonneg
    | some alpn => simp only; split <;> decide

theorem copy_eq_nil_iff : copy config {} = {} ↔ config.uncounted = true := by
  unfold copy zendStringCopy ServerConfig.uncounted
  cases config.alpn with
  | none => cases config.interned.certFile <;> cases config.interned.keyFile <;> simp
  | some alpn =>
    cases config.interned.certFile <;> cases config.interned.keyFile <;>
      cases config.interned.alpn <;> simp

end StringRefs

namespace ServerConnection

/-- What a call adds to the references of each string. -/
theorem accept_refs (initial : Datagram) (config : ServerConfig) (a : AcceptAnswers) :
    (accept initial config a).2 =
      if config.certFile.isNone || config.keyFile.isNone || a.decodes initial then {}
      else StringRefs.copy config {} := by
  have hback := StringRefs.release_copy config {}
  unfold accept AcceptAnswers.decodes
  simp only
  by_cases hconfig : (config.certFile.isNone || config.keyFile.isNone) = true
  · rw [if_pos hconfig, hconfig, Bool.true_or, if_pos rfl]
  · rw [if_neg hconfig]
    rw [Bool.not_eq_true] at hconfig
    rw [hconfig, Bool.false_or]
    by_cases hnil : initial.payload.length = 0
    · rw [if_pos hnil]
      simp [hnil]
    · rw [if_neg hnil]
      cases hrv : a.decode.rv.filter (· ≠ .versionNegotiation) with
      | some rv => simp
      | none =>
        cases hver : a.supportedVersion with
        | false => simp
        | true =>
          by_cases hcid : a.decode.dcidlen > 20 ∨ a.decode.scidlen > 20
          · have hlong : ¬ (a.decode.dcidlen ≤ 20 ∧ a.decode.scidlen ≤ 20) := by omega
            simp [hcid, hlong]
          · -- from here on every way out gives the strings back
            have hshort : a.decode.dcidlen ≤ 20 ∧ a.decode.scidlen ≤ 20 := by omega
            simp only [Bool.not_true, Bool.false_eq_true, if_false, if_neg hcid, hshort]
            rw [if_pos (by simp [hnil])]
            cases addressToSockaddr a.getaddrinfo initial.peerAddress with
            | none => exact hback
            | some remoteAddr =>
              simp only
              cases acceptLocalAddr config initial remoteAddr a with
              | error e => exact hback
              | ok localAddr => exact hback

end ServerConnection

/-! ## Calls and counts -/

/-- A call of `accept`, with the objects that its strings are; `alpn` is the string of the
configuration or the one that the call makes. -/
structure AcceptCall (α : Type) where
  initial : Datagram
  config : ServerConfig
  answers : AcceptAnswers
  certFile : α
  keyFile : α
  alpn : α

namespace AcceptCall

variable {α : Type} (interned : α → Bool)

/-- The configuration, whose strings are interned as their objects are. -/
def configOf (call : AcceptCall α) : ServerConfig :=
  { call.config with
    interned := ⟨interned call.certFile, interned call.keyFile, interned call.alpn⟩ }

/-- The call ends before it takes a reference, or behind the stages `initial` and `decode`, or it has
no string to count references to. -/
def passes (call : AcceptCall α) : Bool :=
  call.config.certFile.isNone || call.config.keyFile.isNone || call.answers.decodes call.initial ||
    (call.configOf interned).uncounted

/-- What the call adds to the references of its strings. -/
def refs (call : AcceptCall α) : StringRefs :=
  (ServerConnection.accept call.initial (call.configOf interned) call.answers).2

theorem refs_eq (call : AcceptCall α) : call.refs interned =
    if call.passes interned then {} else StringRefs.copy (call.configOf interned) {} := by
  unfold refs passes
  rw [ServerConnection.accept_refs]
  show (if (call.config.certFile.isNone || call.config.keyFile.isNone ||
    call.answers.decodes call.initial) = true then _ else _) = _
  cases call.config.certFile.isNone || call.config.keyFile.isNone ||
    call.answers.decodes call.initial with
  | true => rfl
  | false =>
    rw [Bool.false_or, if_neg Bool.false_ne_true]
    split
    · rename_i huncounted
      exact (StringRefs.copy_eq_nil_iff _).mpr huncounted
    · rfl

theorem refs_eq_nil_iff (call : AcceptCall α) :
    call.refs interned = {} ↔ call.passes interned = true := by
  rw [refs_eq]
  cases h : call.passes interned with
  | true => exact iff_of_true rfl rfl
  | false =>
    rw [if_neg Bool.false_ne_true, StringRefs.copy_eq_nil_iff, (Bool.or_eq_false_iff.mp h).2]

theorem refs_nonneg (call : AcceptCall α) : 0 ≤ (call.refs interned).certFile ∧
    0 ≤ (call.refs interned).keyFile ∧ 0 ≤ (call.refs interned).alpn := by
  rw [refs_eq]
  split
  · decide
  · exact StringRefs.copy_nonneg _

variable [DecidableEq α]

/-- The counts behind the call. -/
def after (counts : α → Int) (call : AcceptCall α) : α → Int := fun o =>
  counts o + (if o = call.certFile then (call.refs interned).certFile else 0) +
    (if o = call.keyFile then (call.refs interned).keyFile else 0) +
    (if o = call.alpn then (call.refs interned).alpn else 0)

variable {interned} {call : AcceptCall α}

theorem after_passes (h : call.passes interned = true) (counts : α → Int) :
    after interned counts call = counts := by
  funext o
  unfold after
  rw [(refs_eq_nil_iff interned call).mpr h]
  simp

/-- No call lowers a count. -/
theorem le_after (counts : α → Int) (call : AcceptCall α) (o : α) :
    counts o ≤ after interned counts call o := by
  obtain ⟨hcert, hkey, halpn⟩ := call.refs_nonneg interned
  unfold after
  split <;> split <;> split <;> omega

/-- A call that does not pass raises a count. -/
theorem exists_lt_after (h : call.passes interned = false) (counts : α → Int) :
    ∃ o, counts o < after interned counts call o := by
  have hne : call.refs interned ≠ {} := by
    rw [ne_eq, refs_eq_nil_iff, h]
    exact Bool.false_ne_true
  obtain ⟨hcert, hkey, halpn⟩ := call.refs_nonneg interned
  -- one of the three strings is counted
  have hone : 0 < (call.refs interned).certFile ∨ 0 < (call.refs interned).keyFile ∨
      0 < (call.refs interned).alpn := by
    by_contra hnone
    refine hne ?_
    generalize call.refs interned = refs at *
    obtain ⟨certFile, keyFile, alpn⟩ := refs
    simp only [StringRefs.mk.injEq] at *
    omega
  unfold after
  rcases hone with hpos | hpos | hpos
  · refine ⟨call.certFile, ?_⟩
    rw [if_pos rfl]
    split <;> split <;> omega
  · refine ⟨call.keyFile, ?_⟩
    rw [if_pos rfl]
    split <;> split <;> omega
  · refine ⟨call.alpn, ?_⟩
    rw [if_pos rfl]
    split <;> split <;> omega

theorem le_foldl_after (counts : α → Int) (calls : List (AcceptCall α)) (o : α) :
    counts o ≤ calls.foldl (after interned) counts o := by
  induction calls generalizing counts with
  | nil => exact Int.le_refl _
  | cons call calls ih =>
    exact Int.le_trans (le_after counts call o) (ih (after interned counts call))

end AcceptCall

/-- A sequence of calls leaves every count as it was, the one of a string that a call has made
included, if and only if no call that counts references ends at `initial` or `decode`. -/
theorem references_balanced_iff {α : Type} [DecidableEq α] (interned : α → Bool) (counts : α → Int)
    (calls : List (AcceptCall α)) :
    calls.foldl (AcceptCall.after interned) counts = counts ↔
      ∀ call ∈ calls, call.passes interned = true := by
  induction calls generalizing counts with
  | nil => exact iff_of_true rfl (List.forall_mem_nil _)
  | cons call calls ih =>
    rw [List.foldl_cons, List.forall_mem_cons]
    cases h : call.passes interned with
    | true =>
      rw [AcceptCall.after_passes h, ih]
      exact (and_iff_right rfl).symm
    | false =>
      refine iff_of_false (fun heq => ?_) (fun hand => Bool.false_ne_true hand.1)
      -- a string keeps the reference
      obtain ⟨o, hlt⟩ := AcceptCall.exists_lt_after h counts
      have hle : AcceptCall.after interned counts call o ≤
          calls.foldl (AcceptCall.after interned) (AcceptCall.after interned counts call) o :=
        AcceptCall.le_foldl_after _ calls o
      rw [heq] at hle
      omega

/-- An empty datagram, for a configuration whose files are interned strings and that has no `alpn`. -/
theorem references_leak :
    ¬ ∀ (initial : Datagram) (config : ServerConfig) (a : AcceptAnswers),
      (ServerConnection.accept initial config a).2 = {} := by
  intro h
  have hbad := h ⟨[], none, none⟩
    { localAddress := none, certFile := some [99], keyFile := some [107], alpn := none,
      interned := { certFile := true, keyFile := true } }
    { getaddrinfo := fun _ _ => none, inetNtop := fun _ _ => [] }
  revert hbad
  decide

end PhpQuic
