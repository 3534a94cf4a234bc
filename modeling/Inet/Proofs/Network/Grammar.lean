/-
Inet/Proofs/Network/Grammar.lean

The networks in CIDR notation, and why any other text is none.

A text with exactly one slash is `left/right` in one way (`IsPair`).  Then
`left` is looked at before `right`: a bad address is reported whatever stands
behind the slash.  Of `right` four things can be said:

    right = ""                        no prefix length
    no numeral, or value ≥ 2 ^ 32     malformed, and quoted
    33 ≤ value < 2 ^ 32               too long, and its value reported
    value ≤ 32                        a prefix length

`ofPrefix_toList` is this table.  The reader's seven answers are determined one
by one from it; `read_decides_networks` is all of them.
-/
import Inet.Network.Reader
import Inet.Proofs.Address.Grammar

namespace Inet.Network

open Text

/-! ### Texts with one slash -/

/-- `text` is `left/right`, and there is no other slash in it. -/
structure IsPair (text left right : String) : Prop where
  join : text = left ++ "/" ++ right
  left : '/' ∉ left.toList
  right : '/' ∉ right.toList

variable {text left right : String}

theorem isPair_iff : IsPair text left right ↔ pieces '/' text = [left, right] := by
  have hjoin : String.intercalate (String.singleton '/') [left, right] = left ++ "/" ++ right := by
    rw [String.intercalate_cons_cons, String.intercalate_singleton]
    rfl
  constructor
  · rintro ⟨rfl, hleft, hright⟩
    rw [← hjoin]
    apply pieces_intercalate (List.cons_ne_nil _ _)
    simp [hleft, hright]
  · intro h
    have hleft : left ∈ pieces '/' text := by simp [h]
    have hright : right ∈ pieces '/' text := by simp [h]
    refine ⟨?_, not_mem_of_mem_pieces hleft, not_mem_of_mem_pieces hright⟩
    rw [← hjoin, ← h, intercalate_pieces]

theorem exists_isPair (hcount : text.toList.count '/' + 1 = 2) :
    ∃ left right, IsPair text left right := by
  obtain ⟨left, right, h⟩ := List.length_eq_two.1 (length_pieces.trans hcount)
  exact ⟨left, right, isPair_iff.2 h⟩

/-! ### Prefix lengths -/

/-- What stands behind the slash, once the address is read. -/
theorem ofPrefix_toList (addr : Address) (part : String) :
    ofPrefix addr part.toList =
      if part = "" then .error .missingPrefix
      else if IsNumeral part ∧ numeralValue part ≤ 4294967295 then
        if numeralValue part ≤ 32 then .ok ⟨addr, UInt8.ofNat (numeralValue part)⟩
        else .error (.prefixOverflow (UInt32.ofNat (numeralValue part)))
      else .error (.malformedPrefix part) := by
  rw [ofPrefix, number?_toList, String.ofList_toList]
  by_cases hempty : part = ""
  · rw [if_pos (String.toList_eq_nil_iff.2 hempty), if_pos hempty]
  rw [if_neg (mt String.toList_eq_nil_iff.1 hempty), if_neg hempty]
  by_cases hnum : IsNumeral part
  · simp only [hnum, ↓reduceIte, true_and, UInt32.size]
    split_ifs <;> first | rfl | omega
  · simp only [hnum, ↓reduceIte, false_and]

variable {addr : Address} {part : String}

/-- A prefix length is stored as it is. -/
theorem toNat_ofNat_of_le {value : Nat} (h : value ≤ 32) : (UInt8.ofNat value).toNat = value :=
  UInt8.toNat_ofNat_of_lt' (Nat.lt_of_le_of_lt h (by decide))

theorem ofPrefix_eq_missingPrefix_iff :
    ofPrefix addr part.toList = .error .missingPrefix ↔ part = "" := by
  rw [ofPrefix_toList]
  split_ifs with hempty <;> simp [hempty]

theorem ofPrefix_eq_malformedPrefix_iff {quoted : String} :
    ofPrefix addr part.toList = .error (.malformedPrefix quoted)
      ↔ quoted = part ∧ part ≠ "" ∧ (¬ IsNumeral part ∨ 4294967295 < numeralValue part) := by
  rw [ofPrefix_toList]
  split_ifs with hempty hfit hle
  · simp [hempty]
  · simp [hfit.1, hfit.2]
  · simp [hfit.1, hfit.2]
  · have hbad : ¬ IsNumeral part ∨ 4294967295 < numeralValue part := by
      rwa [not_and_or, not_le] at hfit
    simp [hempty, hbad, eq_comm]

theorem ofPrefix_eq_prefixOverflow_iff {value : UInt32} :
    ofPrefix addr part.toList = .error (.prefixOverflow value)
      ↔ IsNumeral part ∧ numeralValue part = value.toNat ∧ 33 ≤ value.toNat := by
  have hvalue := value.toNat_lt
  rw [ofPrefix_toList]
  split_ifs with hempty hfit hle
  · simp [IsNumeral, hempty]
  · simp only [false_iff]
    omega
  · have hw : (UInt32.ofNat (numeralValue part)).toNat = numeralValue part :=
      UInt32.toNat_ofNat_of_lt' (Nat.lt_succ_of_le hfit.2)
    rw [Except.error.injEq, NetworkError.prefixOverflow.injEq, ← UInt32.toNat_inj, hw]
    constructor
    · intro h
      exact ⟨hfit.1, h, by omega⟩
    · rintro ⟨-, h, -⟩
      exact h
  · simp only [Except.error.injEq, reduceCtorEq, false_iff]
    rintro ⟨hnum, hval, -⟩
    exact hfit ⟨hnum, by omega⟩

theorem ofPrefix_eq_ok_iff {n : Network} :
    ofPrefix addr part.toList = .ok n
      ↔ n.addr = addr ∧ IsNumeral part ∧ numeralValue part = n.prefixLen.toNat
        ∧ n.prefixLen.toNat ≤ 32 := by
  obtain ⟨addr', length⟩ := n
  rw [ofPrefix_toList]
  split_ifs with hempty hfit hle
  · simp [IsNumeral, hempty]
  · have hw := toNat_ofNat_of_le hle
    rw [Except.ok.injEq, Network.mk.injEq, ← UInt8.toNat_inj, hw]
    constructor
    · rintro ⟨rfl, hval⟩
      exact ⟨rfl, hfit.1, hval, hval ▸ hle⟩
    · rintro ⟨rfl, -, hval, -⟩
      exact ⟨rfl, hval⟩
  · simp only [false_iff]
    omega
  · simp only [false_iff]
    rintro ⟨-, hnum, hval, hle⟩
    exact hfit ⟨hnum, by omega⟩

/-! ### Whole texts -/

/-- The number of slashes is looked at before anything else; an empty text stands apart. -/
theorem read_of_count_ne (hcount : text.toList.count '/' + 1 ≠ 2) :
    read text
      = .error (if text = "" then .missing else .separatorCount (text.toList.count '/' + 1)) := by
  have hlength : (text.toList.splitOn '/').length = text.toList.count '/' + 1 := length_splitOn ..
  rw [read_eq, ofText, ofParts_of_length_ne (by rwa [hlength]), hlength]
  by_cases hempty : text = ""
  · rw [if_pos hempty, if_pos hempty]
  · rw [if_neg hempty, if_neg hempty]

theorem IsPair.read_eq (h : IsPair text left right) :
    read text = ofParts [left.toList, right.toList] := by
  have hempty : text ≠ "" := by
    rw [h.join]
    simp
  have hparts : text.toList.splitOn '/' = [left.toList, right.toList] := by
    rw [← map_toList_pieces, isPair_iff.1 h]
    rfl
  rw [Network.read_eq, ofText, if_neg hempty, hparts]

/-- Any answer but those of `read_of_count_ne` is given around the only slash. -/
theorem read_eq_iff_exists_isPair {result : Except NetworkError Network}
    (hmissing : result ≠ .error .missing) (hcount : ∀ m, result ≠ .error (.separatorCount m)) :
    read text = result
      ↔ ∃ left right, IsPair text left right ∧ ofParts [left.toList, right.toList] = result := by
  constructor
  · intro h
    by_cases htwo : text.toList.count '/' + 1 = 2
    · obtain ⟨left, right, hpair⟩ := exists_isPair htwo
      exact ⟨left, right, hpair, hpair.read_eq.symm.trans h⟩
    · rw [read_of_count_ne htwo] at h
      by_cases hempty : text = ""
      · rw [if_pos hempty] at h
        exact absurd h.symm hmissing
      · rw [if_neg hempty] at h
        exact absurd h.symm (hcount _)
  · rintro ⟨left, right, hpair, h⟩
    exact hpair.read_eq.trans h

/-- A bad address is reported whatever stands behind the slash. -/
theorem ofParts_of_error {error : AddressError} (hleft : Address.read left = .error error) :
    ofParts [left.toList, right.toList] = .error (.address error) := by
  rw [ofParts, String.ofList_toList, ← Address.read_eq, hleft]

theorem ofParts_of_ok {addr : Address} (hleft : Address.read left = .ok addr) :
    ofParts [left.toList, right.toList] = ofPrefix addr right.toList := by
  rw [ofParts, String.ofList_toList, ← Address.read_eq, hleft]

theorem ofParts_eq_address_iff {error : AddressError} :
    ofParts [left.toList, right.toList] = .error (.address error)
      ↔ Address.read left = .error error := by
  rcases hleft : Address.read left with error' | addr
  · rw [ofParts_of_error hleft, Except.error.injEq, NetworkError.address.injEq, Except.error.injEq]
  · rw [ofParts_of_ok hleft, ofPrefix_toList]
    split_ifs <;> simp

/-- With a good address the answer is that of the prefix length. -/
theorem ofParts_eq_iff_exists_addr {result : Except NetworkError Network}
    (haddr : ∀ error, result ≠ .error (.address error)) :
    ofParts [left.toList, right.toList] = result
      ↔ ∃ addr, Address.read left = .ok addr ∧ ofPrefix addr right.toList = result := by
  rcases hleft : Address.read left with error | addr
  · rw [ofParts_of_error hleft]
    simp [Ne.symm (haddr error)]
  · rw [ofParts_of_ok hleft]
    simp

/-- A text with one slash is neither empty nor are its slashes counted. -/
theorem ne_of_ofParts_eq_error {error : NetworkError}
    (h : ofParts [left.toList, right.toList] = .error error) :
    error ≠ .missing ∧ ∀ m, error ≠ .separatorCount m := by
  rcases hleft : Address.read left with error' | addr
  · rw [ofParts_of_error hleft] at h
    obtain rfl := Except.error.inj h
    simp
  · rw [ofParts_of_ok hleft, ofPrefix_toList] at h
    split_ifs at h <;> simp_all [← Except.error.inj h]

theorem read_eq_missing_iff : read text = .error .missing ↔ text = "" := by
  by_cases htwo : text.toList.count '/' + 1 = 2
  · obtain ⟨left, right, hpair⟩ := exists_isPair htwo
    constructor
    · intro h
      exact absurd rfl (ne_of_ofParts_eq_error (hpair.read_eq.symm.trans h)).1
    · rintro rfl
      simp at htwo
  · rw [read_of_count_ne htwo]
    by_cases hempty : text = "" <;> simp [hempty]

theorem read_eq_separatorCount_iff {m : Nat} :
    read text = .error (.separatorCount m)
      ↔ text ≠ "" ∧ m = text.toList.count '/' + 1 ∧ m ≠ 2 := by
  by_cases htwo : text.toList.count '/' + 1 = 2
  · obtain ⟨left, right, hpair⟩ := exists_isPair htwo
    constructor
    · intro h
      exact absurd rfl ((ne_of_ofParts_eq_error (hpair.read_eq.symm.trans h)).2 m)
    · rintro ⟨-, rfl, hne⟩
      exact absurd htwo hne
  · rw [read_of_count_ne htwo]
    by_cases hempty : text = ""
    · simp [hempty]
    · simp only [hempty, ↓reduceIte, Except.error.injEq, NetworkError.separatorCount.injEq]
      constructor
      · rintro rfl
        exact ⟨hempty, rfl, htwo⟩
      · rintro ⟨-, hm, -⟩
        exact hm.symm

/-- Of these answers all but that of a bad address are given behind a good one. -/
theorem read_eq_iff_exists_addr {result : Except NetworkError Network}
    (hmissing : result ≠ .error .missing) (hcount : ∀ m, result ≠ .error (.separatorCount m))
    (haddr : ∀ error, result ≠ .error (.address error)) :
    read text = result
      ↔ ∃ left right, IsPair text left right
        ∧ ∃ addr, Address.read left = .ok addr ∧ ofPrefix addr right.toList = result := by
  rw [read_eq_iff_exists_isPair hmissing hcount]
  simp only [ofParts_eq_iff_exists_addr haddr]

theorem read_eq_address_iff {error : AddressError} :
    read text = .error (.address error)
      ↔ ∃ left right, IsPair text left right ∧ Address.read left = .error error := by
  rw [read_eq_iff_exists_isPair (by simp) (by simp)]
  simp only [ofParts_eq_address_iff]

/-- A fault of the prefix length is only found behind a good address. -/
theorem read_eq_iff_of_ofPrefix {error : NetworkError} {P : String → Prop}
    (hP : ∀ addr part, ofPrefix addr part.toList = .error error ↔ P part)
    (hmissing : error ≠ .missing) (hcount : ∀ m, error ≠ .separatorCount m)
    (haddr : ∀ error', error ≠ .address error') :
    read text = .error error
      ↔ ∃ left right, IsPair text left right ∧ (∃ addr, Address.read left = .ok addr)
        ∧ P right := by
  rw [read_eq_iff_exists_addr (by simpa using hmissing) (by simpa using hcount)
    (by simpa using haddr)]
  simp only [hP, exists_and_right]

/-- A network is read off an address and a numeral of value at most 32, and keeps both. -/
theorem read_eq_ok_iff {n : Network} :
    read text = .ok n
      ↔ ∃ left right, IsPair text left right ∧ Address.read left = .ok n.addr
        ∧ IsNumeral right ∧ numeralValue right = n.prefixLen.toNat ∧ n.prefixLen.toNat ≤ 32 := by
  rw [read_eq_iff_exists_addr (by simp) (by simp) (by simp)]
  simp only [ofPrefix_eq_ok_iff]
  constructor
  · rintro ⟨left, right, hpair, addr, hleft, rfl, hright⟩
    exact ⟨left, right, hpair, hleft, hright⟩
  · rintro ⟨left, right, hpair, hleft, hright⟩
    exact ⟨left, right, hpair, n.addr, hleft, rfl, hright⟩

/-- A good address and a prefix length are always read. -/
theorem exists_read_eq_ok_iff :
    (∃ n, read text = .ok n)
      ↔ ∃ left right addr, IsPair text left right ∧ Address.read left = .ok addr
        ∧ IsNumeral right ∧ numeralValue right ≤ 32 := by
  constructor
  · rintro ⟨n, hread⟩
    obtain ⟨left, right, hpair, hleft, hnum, hval, hle⟩ := read_eq_ok_iff.1 hread
    exact ⟨left, right, n.addr, hpair, hleft, hnum, hval ▸ hle⟩
  · rintro ⟨left, right, addr, hpair, hleft, hnum, hle⟩
    have hw := toNat_ofNat_of_le hle
    refine ⟨⟨addr, UInt8.ofNat (numeralValue right)⟩, read_eq_ok_iff.2 ?_⟩
    exact ⟨left, right, hpair, hleft, hnum, hw.symm, hw.le.trans hle⟩

/-- A network that is read has a prefix length of at most 32. -/
theorem valid_of_read {n : Network} (h : read text = .ok n) : n.Valid := by
  obtain ⟨left, right, -, -, -, -, hle⟩ := read_eq_ok_iff.1 h
  exact UInt8.le_iff_toNat_le.2 hle

/-- **Reading decides the networks in CIDR notation**, with the address verbatim, and says of any
other text why it is none.  The checks come in this order: an empty text, the number of slashes, the
address, an empty prefix length, a malformed one, one that is too long. -/
theorem read_decides_networks (text : String) :
    (read text = .error .missing ↔ text = "")
    ∧ (∀ m, read text = .error (.separatorCount m)
        ↔ text ≠ "" ∧ m = text.toList.count '/' + 1 ∧ m ≠ 2)
    ∧ (∀ error, read text = .error (.address error)
        ↔ ∃ left right, IsPair text left right ∧ Address.read left = .error error)
    ∧ (read text = .error .missingPrefix
        ↔ ∃ left right, IsPair text left right ∧ (∃ addr, Address.read left = .ok addr)
          ∧ right = "")
    ∧ (∀ part, read text = .error (.malformedPrefix part)
        ↔ ∃ left right, IsPair text left right ∧ (∃ addr, Address.read left = .ok addr)
          ∧ part = right ∧ right ≠ "" ∧ (¬ IsNumeral right ∨ 4294967295 < numeralValue right))
    ∧ (∀ value, read text = .error (.prefixOverflow value)
        ↔ ∃ left right, IsPair text left right ∧ (∃ addr, Address.read left = .ok addr)
          ∧ IsNumeral right ∧ numeralValue right = value.toNat ∧ 33 ≤ value.toNat)
    ∧ ((∃ n, read text = .ok n)
        ↔ ∃ left right addr, IsPair text left right ∧ Address.read left = .ok addr
          ∧ IsNumeral right ∧ numeralValue right ≤ 32)
    ∧ (∀ n, read text = .ok n
        ↔ ∃ left right, IsPair text left right ∧ Address.read left = .ok n.addr
          ∧ IsNumeral right ∧ numeralValue right = n.prefixLen.toNat
          ∧ n.prefixLen.toNat ≤ 32) := by
  refine ⟨read_eq_missing_iff, fun _ => read_eq_separatorCount_iff, fun _ => read_eq_address_iff,
    ?_, fun part => ?_, fun value => ?_, exists_read_eq_ok_iff, fun _ => read_eq_ok_iff⟩
  · exact read_eq_iff_of_ofPrefix (fun _ _ => ofPrefix_eq_missingPrefix_iff)
      (by simp) (by simp) (by simp)
  · exact read_eq_iff_of_ofPrefix (fun _ _ => ofPrefix_eq_malformedPrefix_iff)
      (by simp) (by simp) (by simp)
  · exact read_eq_iff_of_ofPrefix (fun _ _ => ofPrefix_eq_prefixOverflow_iff)
      (by simp) (by simp) (by simp)

end Inet.Network
