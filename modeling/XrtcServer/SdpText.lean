import Mathlib.Data.List.TakeWhile
import XrtcServer.RemoteSdp

/-! How the fields of a line are read, and the numbers and fingerprints in it. -/
namespace XrtcServer
namespace Sdp
variable {x y line : Text} {c : Char}

section Fields

theorem substr_append {pos : ℕ} (h : x.length = pos) (y : Text) : substr (x ++ y) pos = .ok y := by
  rw [substr, if_neg (by rw [List.length_append]; omega), ← h, List.drop_left]

theorem drop_of_substr {source alg : Text} {pos : ℕ} (h : substr source pos = .ok alg) : alg = source.drop pos := by
  rw [substr] at h
  split at h
  · cases h
  · exact (Except.ok.inj h).symm

theorem split_of_not_mem (h : c ∉ x) : split x c = [x] := List.splitOn_eq_singleton h

theorem split_append_cons (h : c ∉ x) (y : Text) : split (x ++ c :: y) c = x :: split y c :=
  List.splitOn_append_cons_self_of_not_mem h y

theorem split_ne_nil (x : Text) (c : Char) : split x c ≠ [] := List.splitOn_ne_nil c x

theorem tokenize_of_not_mem (h : c ∉ x) (hx : x ≠ []) : tokenize x c = [x] := by
  rw [tokenize, split_of_not_mem h]
  simp [hx]

theorem tokenize_append_cons (h : c ∉ x) (hx : x ≠ []) (y : Text) : tokenize (x ++ c :: y) c = x :: tokenize y c := by
  rw [tokenize, split_append_cons h, List.filter_cons_of_pos (by simpa using hx)]
  rfl

/-- A text that is read back into its lines. -/
theorem tokenize_lines (lines : List Text) (h : ∀ line ∈ lines, '\n' ∉ line) :
    tokenize (lines.flatMap fun line => line ++ ['\r', '\n']) '\n' = lines.map (· ++ ['\r']) := by
  induction lines with
  | nil => rfl
  | cons line lines ih =>
    have hline : '\n' ∉ line ++ ['\r'] := by
      simpa using h line List.mem_cons_self
    have hassoc (rest : Text) : (line ++ ['\r', '\n']) ++ rest = (line ++ ['\r']) ++ '\n' :: rest := by simp
    rw [List.flatMap_cons, hassoc, tokenize_append_cons hline (by simp),
      ih fun l hl => h l (List.mem_cons_of_mem line hl), List.map_cons]

theorem tokenize_nil (c : Char) : tokenize [] c = [] := rfl

/-- A field with one colon. -/
theorem getAttribute_eq (hx : ':' ∉ x) (hy : ':' ∉ y) (hne : x ≠ []) : getAttribute (x ++ ':' :: y) = y := by
  rw [getAttribute, tokenize_append_cons hx hne]
  by_cases hempty : y = []
  · rw [hempty, tokenize_nil]
  · rw [tokenize_of_not_mem hy hempty]

theorem tokenizeFirst_eq (hx : c ∉ x) (hy : y.head? ≠ some c) : tokenizeFirst (x ++ c :: y) c = some (x, y) := by
  have hmem : c ∈ x ++ c :: y := List.mem_append_right _ List.mem_cons_self
  have hall : ∀ a ∈ x, decide (a ≠ c) = true := fun a ha => decide_eq_true fun heq => hx (heq ▸ ha)
  have hself : decide (c ≠ c) = false := by simp
  have htake : (x ++ c :: y).takeWhile (· ≠ c) = x := by
    rw [List.takeWhile_append_of_pos hall, List.takeWhile_cons_of_neg (by simp), List.append_nil]
  have hdrop : (x ++ c :: y).dropWhile (· ≠ c) = c :: y := by
    rw [List.dropWhile_append_of_pos hall, List.dropWhile_cons_of_neg (by simp)]
  have hrest : (c :: y).dropWhile (· = c) = y := by
    rw [List.dropWhile_cons_of_pos (by simp)]
    cases y with
    | nil => rfl
    | cons d y =>
      have hd : d ≠ c := fun heq => hy (heq ▸ rfl)
      exact List.dropWhile_cons_of_neg (by simpa using hd)
  rw [tokenizeFirst, if_pos hmem, htake, hdrop, hrest]

end Fields

section Numbers

/-- The characters of a number. -/
theorem mem_decimal {n : ℤ} (h : c ∈ decimal n) : c = '-' ∨ c.isDigit := by
  rw [decimal] at h
  split at h
  · rcases List.mem_cons.mp h with h | h
    · exact .inl h
    · exact .inr (Nat.isDigit_of_mem_toDigits (by decide) (by decide) h)
  · exact .inr (Nat.isDigit_of_mem_toDigits (by decide) (by decide) h)

theorem decimal_ne_nil (n : ℤ) : decimal n ≠ [] := by
  rw [decimal]
  split
  · exact List.cons_ne_nil _ _
  · exact Nat.toDigits_ne_nil

theorem not_mem_decimal {n : ℤ} (hc : c ≠ '-') (hdigit : ¬ c.isDigit) : c ∉ decimal n := by
  intro h
  rcases mem_decimal h with h | h
  · exact hc h
  · exact hdigit h

theorem decimal_toNat (n : ℕ) : decimal n = Nat.toDigits 10 n := by
  rw [decimal, if_neg (by omega), Int.natAbs_natCast]

/-- A number is read back. -/
theorem fromString_decimal (n : UInt32) : fromString (decimal n.toNat) = some n := by
  have hdigits : ∀ c ∈ Nat.toDigits 10 n.toNat, c.isDigit = true := fun c hc =>
    Nat.isDigit_of_mem_toDigits (by decide) (by decide) hc
  have hne : Nat.toDigits 10 n.toNat ≠ [] := Nat.toDigits_ne_nil
  have hstr : (Nat.toDigits 10 n.toNat).takeWhile (· ≠ '\x00') = Nat.toDigits 10 n.toNat := by
    refine List.takeWhile_eq_self_iff.mpr fun c hc => ?_
    have hdigit := hdigits c hc
    refine decide_eq_true ?_
    rintro rfl
    revert hdigit
    decide
  have hhead : (Nat.toDigits 10 n.toNat).head? ≠ some '-' := by
    intro hhead
    have hdigit := hdigits '-' (List.mem_of_mem_head? hhead)
    revert hdigit
    decide
  have hvalue : Nat.ofDigitChars 10 (Nat.toDigits 10 n.toNat) 0 = n.toNat := Nat.ofDigitChars_toDigits (by decide) (by decide)
  have hlt : n.toNat < 4294967296 := n.toNat_lt
  simp only [fromString, decimal_toNat, hstr, hhead, if_false, hvalue, and_false]
  rw [if_neg, if_neg]
  · rw [UInt32.ofNat_toNat]
  · omega
  · rintro (h | h)
    · exact hne h
    · exact h (List.all_eq_true.mpr hdigits)

end Numbers

section Fingerprints

theorem hexDecode_hexEncode {n : ℕ} (h : n < 16) : hexDecode (hexEncode n) = some n := by
  revert n
  decide

theorem hexDecodeByte_hexEncode (b : UInt8) : hexDecodeByte (hexEncode (b.toNat / 16)) (hexEncode (b.toNat % 16)) = some b := by
  have hlt : b.toNat < 256 := b.toNat_lt
  have hhigh : b.toNat / 16 < 16 := by omega
  have hlow : b.toNat % 16 < 16 := by omega
  have hbyte : b.toNat / 16 * 16 + b.toNat % 16 = b.toNat := by omega
  rw [hexDecodeByte, hexDecode_hexEncode hhigh, hexDecode_hexEncode hlow]
  show some (UInt8.ofNat (b.toNat / 16 * 16 + b.toNat % 16)) = some b
  rw [hbyte, UInt8.ofNat_toNat]

/-- A digest is read back. -/
theorem hexDecodeLoop_hexEncode (digest : List UInt8) : hexDecodeLoop (hexEncodeWithDelimiter digest) = some digest := by
  induction digest with
  | nil => rfl
  | cons b bs ih =>
    cases bs with
    | nil =>
      show (hexDecodeByte _ _).map ([·]) = some [b]
      rw [hexDecodeByte_hexEncode]
      rfl
    | cons b' bs =>
      obtain ⟨ch, rest, hrest⟩ : ∃ ch rest, hexEncodeWithDelimiter (b' :: bs) = ch :: rest := by
        cases bs with
        | nil => exact ⟨_, _, rfl⟩
        | cons b'' bs => exact ⟨_, _, rfl⟩
      have hcons : hexEncodeWithDelimiter (b :: b' :: bs) =
          hexEncode (b.toNat / 16) :: hexEncode (b.toNat % 16) :: ':' :: hexEncodeWithDelimiter (b' :: bs) := rfl
      rw [hcons, hrest, hexDecodeLoop, if_neg (by decide), hexDecodeByte_hexEncode, ← hrest, ih]
      rfl

theorem length_hexEncodeWithDelimiter (digest : List UInt8) : (hexEncodeWithDelimiter digest).length = 3 * digest.length - 1 := by
  induction digest with
  | nil => rfl
  | cons b bs ih =>
    cases bs with
    | nil => rfl
    | cons b' bs =>
      have hcons : hexEncodeWithDelimiter (b :: b' :: bs) =
          hexEncode (b.toNat / 16) :: hexEncode (b.toNat % 16) :: ':' :: hexEncodeWithDelimiter (b' :: bs) := rfl
      rw [hcons, List.length_cons, List.length_cons, List.length_cons, ih]
      simp only [List.length_cons]
      omega

/-- A fingerprint that was not made of another algorithm, or of too many bytes. -/
def SSLFingerprint.Valid (fp : SSLFingerprint) : Prop :=
  isFips180DigestAlgorithm fp.algorithm = true ∧ fp.digest ≠ [] ∧ fp.digest.length ≤ kMaxSize

theorem createUniqueFromRfc4572_eq {fp : SSLFingerprint} (h : fp.Valid) :
    SSLFingerprint.createUniqueFromRfc4572 (fp.algorithm.toList.map Char.toLower) fp.getRfc4572Fingerprint = some fp := by
  obtain ⟨hfips, hne, hlength⟩ := h
  have halg : fp.algorithm.toList.map Char.toLower = fp.algorithm.toList ∧ fp.algorithm.toList ≠ [] := by
    simp only [isFips180DigestAlgorithm, List.mem_cons, List.not_mem_nil, or_false, decide_eq_true_eq] at hfips
    rcases hfips with h | h | h | h | h <;> rw [h] <;> decide
  have hpos := List.length_pos_iff.mpr hne
  have hcount := length_hexEncodeWithDelimiter fp.digest
  have hprinted : hexEncodeWithDelimiter fp.digest ≠ [] := by
    rw [← List.length_pos_iff]
    omega
  have hdecoded : hexDecodeWithDelimiter kMaxSize (hexEncodeWithDelimiter fp.digest) = fp.digest := by
    rw [hexDecodeWithDelimiter, if_neg (by omega), hexDecodeLoop_hexEncode]
    rfl
  rw [SSLFingerprint.createUniqueFromRfc4572, halg.1, if_neg, if_neg]
  · dsimp only
    rw [SSLFingerprint.getRfc4572Fingerprint, hdecoded, if_neg hne, String.ofList_toList]
  · exact hprinted
  · rw [String.ofList_toList, hfips]
    simp [halg.2]

theorem length_hexDecodeLoop {source : Text} {digest : List UInt8} (h : hexDecodeLoop source = some digest) :
    digest.length ≤ (source.length + 1) / 3 := by
  induction source using hexDecodeLoop.induct generalizing digest with
  | case1 =>
    obtain rfl := Option.some.inj h
    exact Nat.zero_le _
  | case2 _ => cases h
  | case3 h1 h2 =>
    obtain ⟨b, -, rfl⟩ := Option.map_eq_some_iff.mp h
    simp
  | case4 _ _ _ => cases h
  | case5 h1 h2 delimiter ch rest hdelimiter =>
    rw [hexDecodeLoop, if_pos hdelimiter] at h
    cases h
  | case6 h1 h2 delimiter ch rest hdelimiter ih =>
    rw [hexDecodeLoop, if_neg hdelimiter] at h
    simp only [Option.bind_eq_bind, Option.bind_eq_some_iff, Option.pure_def, Option.some.injEq] at h
    obtain ⟨b, -, bs, hbs, rfl⟩ := h
    have hle := ih hbs
    simp only [List.length_cons] at hle ⊢
    omega

/-- What is read is a valid fingerprint. -/
theorem valid_of_createUniqueFromRfc4572 {algorithm fingerprint : Text} {fp : SSLFingerprint}
    (h : SSLFingerprint.createUniqueFromRfc4572 algorithm fingerprint = some fp) : fp.Valid := by
  rw [SSLFingerprint.createUniqueFromRfc4572] at h
  split at h
  · cases h
  · rename_i halg
    split at h
    · cases h
    · dsimp only at h
      split at h
      · cases h
      · rename_i hvalue
        obtain rfl := Option.some.inj h
        refine ⟨not_not.mp fun hfips => halg (.inr hfips), hvalue, ?_⟩
        dsimp only
        rw [hexDecodeWithDelimiter]
        split
        · exact Nat.zero_le _
        · rename_i hlen
          cases hloop : hexDecodeLoop fingerprint with
          | none => exact Nat.zero_le _
          | some digest =>
            have hle := length_hexDecodeLoop hloop
            exact hle.trans (Nat.not_lt.mp hlen)

end Fingerprints

section Patterns
variable {pattern : String}

theorem found_iff : found line pattern = true ↔ pattern.toList <:+: line := decide_eq_true_iff

theorem found_eq_false_iff : found line pattern = false ↔ ¬ pattern.toList <:+: line := decide_eq_false_iff_not

/-- A pattern without the separator is found in one of the two parts. -/
theorem found_append_cons (h : c ∉ pattern.toList) :
    found (x ++ c :: y) pattern = false ↔ found x pattern = false ∧ found y pattern = false := by
  rw [found_eq_false_iff, found_eq_false_iff, found_eq_false_iff, Substrings.infix_append_cons h, not_or]

theorem found_append_cons_eq (h : c ∉ pattern.toList) :
    found (x ++ c :: y) pattern = (found x pattern || found y pattern) := by
  rw [Bool.eq_iff_iff, Bool.or_eq_true, found_iff, found_iff, found_iff]
  exact Substrings.infix_append_cons h

theorem found_of_not_mem (hp : c ∈ pattern.toList) (hx : c ∉ x) : found x pattern = false :=
  found_eq_false_iff.mpr (Substrings.not_infix_of_not_mem hp hx)

/-- A pattern with a separator is not found across another place. -/
theorem not_found_of_aligned {u v : Text} (hp : pattern.toList = u ++ c :: v) (hx : c ∉ x) (hy : c ∉ y)
    (h : ¬ (u <:+ x ∧ v <+: y)) : found (x ++ c :: y) pattern = false := by
  refine found_eq_false_iff.mpr fun hinfix => h ?_
  rw [hp] at hinfix
  exact Substrings.aligned_of_infix hx hy hinfix

theorem found_of_start (h : pattern.toList <+: line) : found line pattern = true := found_iff.mpr h.isInfix

/-- The patterns that lines are told apart by in every medium. -/
def markers : List String := ["m=", "a=ice-ufrag", "a=ice-pwd", "a=fingerprint"]

def Unmarked (line : Text) : Prop := ∀ marker ∈ markers, found line marker = false

instance (line : Text) : Decidable (Unmarked line) := inferInstanceAs (Decidable (∀ marker ∈ markers, _))

theorem not_mem_marker (hc : c = ':' ∨ c = ' ') : ∀ marker ∈ markers, c ∉ marker.toList := by
  rcases hc with rfl | rfl <;> decide

theorem unmarked_append_cons (hc : c = ':' ∨ c = ' ') : Unmarked (x ++ c :: y) ↔ Unmarked x ∧ Unmarked y := by
  have hnot := not_mem_marker hc
  simp only [Unmarked]
  constructor
  · intro h
    exact ⟨fun m hm => ((found_append_cons (hnot m hm)).mp (h m hm)).1,
      fun m hm => ((found_append_cons (hnot m hm)).mp (h m hm)).2⟩
  · rintro ⟨hx, hy⟩ m hm
    exact (found_append_cons (hnot m hm)).mpr ⟨hx m hm, hy m hm⟩

theorem unmarked_of_not_mem (h : '=' ∉ x) : Unmarked x := by
  have hmem : ∀ marker ∈ markers, '=' ∈ marker.toList := by decide
  exact fun m hm => found_of_not_mem (hmem m hm) h

end Patterns

section Lines

/-- The lines of a text as `set_remote_sdp` reads them. -/
def readLines (sdp : Text) : List Text :=
  (tokenize sdp '\n').map fun field => if found sdp "\r\n" then field.dropLast else field

/-- A text has to have lines, and they are read one after the other. -/
theorem setRemoteSdp_eq (sdp : Text) :
    setRemoteSdp sdp = if tokenize sdp '\n' = [] then .error .error
      else (readLines sdp).foldlM ParseState.parseLine {} >>= fun s => .ok s.remoteDesc := rfl

theorem setRemoteSdp_ok {sdp : Text} {desc : SessionDescription} (h : setRemoteSdp sdp = .ok desc) :
    ∃ s, (readLines sdp).foldlM ParseState.parseLine {} = .ok s ∧ desc = s.remoteDesc := by
  rw [setRemoteSdp_eq] at h
  split at h
  · cases h
  · cases hrun : (readLines sdp).foldlM ParseState.parseLine {} with
    | error e =>
      rw [hrun] at h
      cases h
    | ok s =>
      rw [hrun] at h
      exact ⟨s, rfl, (Except.ok.inj h).symm⟩

end Lines

end Sdp
end XrtcServer
