import XrtcServer.SdpMedium

/-! The lines of a transport, and what is read from them. -/
namespace XrtcServer
namespace Sdp
variable {td : TransportDescription} {fp : SSLFingerprint} {c : Char} {line rest : Text}

/-- A credential as it is generated. -/
structure IceText (s : String) : Prop where
  nonempty : s.toList ≠ []
  blank : ' ' ∉ s.toList
  colon : ':' ∉ s.toList
  newline : '\n' ∉ s.toList
  equals : '=' ∉ s.toList

instance (s : String) : Decidable (IceText s) :=
  decidable_of_iff (s.toList ≠ [] ∧ ' ' ∉ s.toList ∧ ':' ∉ s.toList ∧ '\n' ∉ s.toList ∧ '=' ∉ s.toList)
    ⟨fun h => ⟨h.1, h.2.1, h.2.2.1, h.2.2.2.1, h.2.2.2.2⟩, fun h => ⟨h.nonempty, h.blank, h.colon, h.newline, h.equals⟩⟩

section Credentials

theorem parseTransportInfo_ufrag {ufrag : String} (h : IceText ufrag) :
    parseTransportInfo td ("a=ice-ufrag:".toList ++ ufrag.toList) = .ok { td with iceUfrag := ufrag } := by
  have hfound : found ("a=ice-ufrag:".toList ++ ufrag.toList) "a=ice-ufrag" = true := found_of_start ⟨_, rfl⟩
  have hattr : getAttribute ("a=ice-ufrag:".toList ++ ufrag.toList) = ufrag.toList :=
    getAttribute_eq (x := "a=ice-ufrag".toList) (by decide) h.colon (by decide)
  rw [parseTransportInfo, if_pos hfound, hattr]
  dsimp only
  rw [if_neg h.nonempty, String.ofList_toList]

theorem parseTransportInfo_pwd {pwd : String} (h : IceText pwd) :
    parseTransportInfo td ("a=ice-pwd:".toList ++ pwd.toList) = .ok { td with icePwd := pwd } := by
  have heq : '=' ∉ "ice-pwd:".toList ++ pwd.toList := by
    simpa using h.equals
  have hname : ¬ "ice-ufrag".toList <+: "ice-pwd:".toList ++ pwd.toList := by simp
  have hufrag : ¬ found ("a=ice-pwd:".toList ++ pwd.toList) "a=ice-ufrag" = true :=
    Bool.eq_false_iff.mp (not_found_of_name rfl heq hname)
  have hfound : found ("a=ice-pwd:".toList ++ pwd.toList) "a=ice-pwd" = true := found_of_start ⟨_, rfl⟩
  have hattr : getAttribute ("a=ice-pwd:".toList ++ pwd.toList) = pwd.toList :=
    getAttribute_eq (x := "a=ice-pwd".toList) (by decide) h.colon (by decide)
  rw [parseTransportInfo, if_neg hufrag, if_pos hfound, hattr]
  dsimp only
  rw [if_neg h.nonempty, String.ofList_toList]

end Credentials

section Fingerprints

theorem mem_hexEncodeWithDelimiter {digest : List UInt8} (h : c ∈ hexEncodeWithDelimiter digest) :
    c = ':' ∨ c ∈ '!' :: "0123456789ABCDEF".toList := by
  have hentry (digits : Text) (n : ℕ) : digits[n]?.getD '!' ∈ '!' :: digits := by
    cases hn : digits[n]? with
    | none => exact List.mem_cons_self
    | some d => exact List.mem_cons_of_mem _ (List.mem_of_getElem? hn)
  have hdigit (n : ℕ) : hexEncode n ∈ '!' :: "0123456789ABCDEF".toList := hentry _ n
  have hbyte {b : UInt8} (h : c ∈ hexEncodeByte b) : c ∈ '!' :: "0123456789ABCDEF".toList := by
    simp only [hexEncodeByte, List.mem_cons, List.not_mem_nil, or_false] at h
    rcases h with rfl | rfl
    · exact hdigit _
    · exact hdigit _
  induction digest with
  | nil => cases h
  | cons b bs ih =>
    cases bs with
    | nil => exact .inr (hbyte h)
    | cons b' bs =>
      rcases List.mem_append.mp (show c ∈ hexEncodeByte b ++ ':' :: hexEncodeWithDelimiter (b' :: bs) from h) with h | h
      · exact .inr (hbyte h)
      · rcases List.mem_cons.mp h with h | h
        · exact .inl h
        · exact ih h

theorem not_mem_fingerprint (h : fp.Valid) (hc : c ∈ [' ', '=', '\n']) : c ∉ fp.algorithm.toList ∧ c ∉ fp.getRfc4572Fingerprint := by
  constructor
  · have hfips := h.1
    simp only [isFips180DigestAlgorithm, List.mem_cons, List.not_mem_nil, or_false, decide_eq_true_eq] at hfips
    simp only [List.mem_cons, List.not_mem_nil, or_false] at hc
    rcases hfips with h | h | h | h | h <;> rw [h] <;> rcases hc with rfl | rfl | rfl <;> decide
  · intro hmem
    have hsafe : ∀ c ∈ [' ', '=', '\n'], c ≠ ':' ∧ c ∉ '!' :: "0123456789ABCDEF".toList := by
      intro c hc
      simp only [List.mem_cons, List.not_mem_nil, or_false] at hc
      rcases hc with rfl | rfl | rfl <;> decide
    rcases mem_hexEncodeWithDelimiter hmem with h | h
    · exact (hsafe c hc).1 h
    · exact (hsafe c hc).2 h

theorem parseTransportInfo_fingerprint (h : fp.Valid) :
    parseTransportInfo td ("a=fingerprint:".toList ++ fp.algorithm.toList ++ " ".toList ++ fp.getRfc4572Fingerprint) =
      .ok { td with identityFingerprint := some fp } := by
  obtain ⟨hblankAlg, hblankHex⟩ := not_mem_fingerprint h (c := ' ') (by decide)
  obtain ⟨heqAlg, heqHex⟩ := not_mem_fingerprint h (c := '=') (by decide)
  have hcreate := createUniqueFromRfc4572_eq h
  have hnonempty : fp.getRfc4572Fingerprint ≠ [] := by
    rw [← List.length_pos_iff, SSLFingerprint.getRfc4572Fingerprint, length_hexEncodeWithDelimiter]
    have hpos := List.length_pos_iff.mpr h.2.1
    omega
  generalize fp.getRfc4572Fingerprint = hex at *
  generalize fp.algorithm.toList = alg at *
  have hline : "a=fingerprint:".toList ++ alg ++ " ".toList ++ hex = 'a' :: '=' :: ("fingerprint:".toList ++ alg) ++ ' ' :: hex := by
    simp
  have heq : '=' ∉ ("fingerprint:".toList ++ alg) ++ ' ' :: hex := by
    simpa using ⟨heqAlg, heqHex⟩
  have hblank : ' ' ∉ 'a' :: '=' :: ("fingerprint:".toList ++ alg) := by
    simpa using hblankAlg
  have hufrag : ¬ "ice-ufrag".toList <+: ("fingerprint:".toList ++ alg) ++ ' ' :: hex := by simp
  have hpwd : ¬ "ice-pwd".toList <+: ("fingerprint:".toList ++ alg) ++ ' ' :: hex := by simp
  have hfound : found ('a' :: '=' :: ("fingerprint:".toList ++ alg) ++ ' ' :: hex) "a=fingerprint" = true := by
    refine found_of_start ?_
    simp
  have htokens : tokenize ('a' :: '=' :: ("fingerprint:".toList ++ alg) ++ ' ' :: hex) ' ' =
      ['a' :: '=' :: ("fingerprint:".toList ++ alg), hex] := by
    rw [tokenize_append_cons hblank (List.cons_ne_nil _ _), tokenize_of_not_mem hblankHex hnonempty]
  have hsubstr : substr ('a' :: '=' :: ("fingerprint:".toList ++ alg)) 14 = .ok alg :=
    @substr_append ('a' :: '=' :: "fingerprint:".toList) 14 (by decide) alg
  have hnotufrag : found ('a' :: '=' :: ("fingerprint:".toList ++ alg) ++ ' ' :: hex) "a=ice-ufrag" = false :=
    not_found_of_name rfl heq hufrag
  have hnotpwd : found ('a' :: '=' :: ("fingerprint:".toList ++ alg) ++ ' ' :: hex) "a=ice-pwd" = false :=
    not_found_of_name rfl heq hpwd
  rw [hline]
  simp only [parseTransportInfo, hnotufrag, hnotpwd, hfound, htokens, Bool.false_eq_true, if_false, if_true, hsubstr]
  rw [ExceptFolds.ok_bind, hcreate]
  rfl

end Fingerprints

section Transports
variable {transportInfo : Option TransportDescription} {k : MediaType}

/-- The credentials of a transport can be told apart in its lines. -/
def PlainTransport (transportInfo : Option TransportDescription) : Prop :=
  ∀ td ∈ transportInfo, IceText td.iceUfrag ∧ IceText td.icePwd

def ValidTransport (transportInfo : Option TransportDescription) : Prop :=
  ∀ td ∈ transportInfo, ∀ fp ∈ td.identityFingerprint, fp.Valid

/-- What is read of the transport of a medium. -/
def readTransport (k : MediaType) (transportInfo : Option TransportDescription) : TransportDescription :=
  match transportInfo with
  | none => { mid := k.mid }
  | some td => { mid := k.mid, iceUfrag := td.iceUfrag, icePwd := td.icePwd, identityFingerprint := td.identityFingerprint }

theorem still_setup (role : ConnectionRole) : Still ("a=setup:".toList ++ connectionRoleToString role) := by
  cases role <;> decide +kernel

theorem foldlM_transportLines (hplain : PlainTransport transportInfo) (hvalid : ValidTransport transportInfo) :
    (transportLines transportInfo).foldlM parseTransportInfo { mid := k.mid } = .ok (readTransport k transportInfo) := by
  cases transportInfo with
  | none => rfl
  | some td =>
    obtain ⟨hufrag, hpwd⟩ := hplain td rfl
    unfold transportLines
    dsimp only
    rw [List.cons_append, ExceptFolds.foldlM_cons_ok (parseTransportInfo_ufrag hufrag), List.cons_append,
      ExceptFolds.foldlM_cons_ok (parseTransportInfo_pwd hpwd), List.nil_append]
    cases hfp : td.identityFingerprint with
    | none =>
      rw [readTransport, hfp]
      rfl
    | some fp =>
      have hsetup (read : TransportDescription) :
          parseTransportInfo read ("a=setup:".toList ++ connectionRoleToString td.connectionRole) = .ok read :=
        parseTransportInfo_unmarked (still_setup td.connectionRole).unmarked
      dsimp only
      rw [ExceptFolds.foldlM_cons_ok (parseTransportInfo_fingerprint (hvalid td rfl fp hfp)), ExceptFolds.foldlM_cons_ok (hsetup _),
        readTransport, hfp]
      rfl

/-- The lines of a transport are told from others by their names. -/
structure TransportText (text : Text) : Prop where
  equals : '=' ∉ text
  newline : '\n' ∉ text
  ssrc : ¬ "ssrc".toList <+: text

theorem mem_transportLines (hplain : PlainTransport transportInfo) (hvalid : ValidTransport transportInfo)
    (h : line ∈ transportLines transportInfo) : ∃ text, line = 'a' :: '=' :: text ∧ TransportText text := by
  cases transportInfo with
  | none => cases h
  | some td =>
    obtain ⟨hufrag, hpwd⟩ := hplain td rfl
    unfold transportLines at h
    dsimp only at h
    rw [List.mem_append] at h
    rcases h with h | h
    · simp only [List.mem_cons, List.not_mem_nil, or_false] at h
      rcases h with rfl | rfl
      · exact ⟨"ice-ufrag:".toList ++ td.iceUfrag.toList, rfl, by simpa using hufrag.equals, by simpa using hufrag.newline, by simp⟩
      · exact ⟨"ice-pwd:".toList ++ td.icePwd.toList, rfl, by simpa using hpwd.equals, by simpa using hpwd.newline, by simp⟩
    · cases hfp : td.identityFingerprint with
      | none =>
        rw [hfp] at h
        cases h
      | some fp =>
        have hfpvalid := hvalid td rfl fp hfp
        obtain ⟨heqAlg, heqHex⟩ := not_mem_fingerprint hfpvalid (c := '=') (by decide)
        obtain ⟨hlineAlg, hlineHex⟩ := not_mem_fingerprint hfpvalid (c := '\n') (by decide)
        rw [hfp] at h
        simp only [List.mem_cons, List.not_mem_nil, or_false] at h
        rcases h with rfl | rfl
        · refine ⟨"fingerprint:".toList ++ fp.algorithm.toList ++ ' ' :: fp.getRfc4572Fingerprint, ?_, ?_, ?_, by simp⟩
          · simp
          · simpa using ⟨heqAlg, heqHex⟩
          · simpa using ⟨hlineAlg, hlineHex⟩
        · refine ⟨"setup:".toList ++ connectionRoleToString td.connectionRole, rfl, ?_, ?_, by simp⟩ <;>
            cases td.connectionRole <;> decide

end Transports

end Sdp
end XrtcServer
