import Rivora.Config

/-! A backend's and a VIP's key each determine the configuration fields they are written from. -/

namespace Rivora

theorem split_last {separator : Char} {front back front' back' : List Char}
    (absent : separator ∉ back) (absent' : separator ∉ back')
    (same : front ++ separator :: back = front' ++ separator :: back') :
    front = front' ∧ back = back' := by
  -- Walking both fronts in step, neither can end before the other.
  induction front generalizing front' with
  | nil =>
    cases front' with
    | nil => simpa using same
    | cons head tail =>
      simp only [List.nil_append, List.cons_append, List.cons.injEq] at same
      exact absurd (same.2 ▸ by simp) absent
  | cons head tail ih =>
    cases front' with
    | nil =>
      simp only [List.nil_append, List.cons_append, List.cons.injEq] at same
      exact absurd (same.2 ▸ by simp) absent'
    | cons head' tail' =>
      simp only [List.cons_append, List.cons.injEq] at same
      obtain ⟨fronts, backs⟩ := ih same.2
      exact ⟨by rw [same.1, fronts], backs⟩

theorem digit_of_mem_toString {n : Nat} {c : Char} (member : c ∈ (toString n).toList) :
    c.isDigit = true := by
  rw [Nat.toString_eq_ofList_toDigits, String.toList_ofList] at member
  exact Nat.isDigit_of_mem_toDigits (by omega) (by omega) member

theorem separator_not_mem_toString {separator : Char} (nondigit : separator.isDigit = false)
    (n : Nat) : separator ∉ (toString n).toList := by
  intro member
  rw [digit_of_mem_toString member] at nondigit
  cases nondigit

theorem toString_nat_inj {m n : Nat} (same : (toString m).toList = (toString n).toList) :
    m = n := by
  simp only [Nat.toString_eq_ofList_toDigits, String.toList_ofList] at same
  calc
    m = Nat.ofDigitChars 10 (Nat.toDigits 10 m) 0 := Nat.ofDigitChars_ten_toDigits.symm
    _ = Nat.ofDigitChars 10 (Nat.toDigits 10 n) 0 := by rw [same]
    _ = n := Nat.ofDigitChars_ten_toDigits

theorem backendName_inj {a b : Backend} (same : backendName a = backendName b) :
    a.address = b.address ∧ a.port = b.port := by
  -- The name's last colon stands in front of the port.
  have chars := congrArg String.toList same
  simp only [backendName, String.toList_append] at chars
  have colon : (":" : String).toList = [':'] := rfl
  rw [colon, List.append_assoc, List.append_assoc] at chars
  obtain ⟨address, port⟩ := split_last (separator_not_mem_toString rfl _)
    (separator_not_mem_toString rfl _) chars
  exact ⟨String.toList_inj.1 address, UInt16.toNat_inj.1 (toString_nat_inj port)⟩

theorem colon_not_mem_portLabel (v : VIP) : ':' ∉ v.portLabel.toList := by
  have plain := @separator_not_mem_toString ':' rfl
  unfold VIP.portLabel
  split
  · simp only [String.toList_append, List.mem_append, not_or]
    exact ⟨⟨plain _, by decide⟩, plain _⟩
  · exact plain _

theorem colon_not_mem_protocol (p : Protocol) : ':' ∉ p.text.toList := by
  cases p <;> decide

theorem protocol_text_inj {p q : Protocol} (same : p.text = q.text) : p = q := by
  cases p <;> cases q <;> first | rfl | (exact absurd same (by decide))

theorem portLabel_inj {v w : VIP} (same : v.portLabel = w.portLabel) :
    v.port = w.port ∧ v.portEnd = w.portEnd := by
  -- A dash in the label tells a range from one port.
  have dash : ("-" : String).toList = ['-'] := rfl
  have plain := @separator_not_mem_toString '-' rfl
  have chars := congrArg String.toList same
  by_cases left : v.isRange = true <;> by_cases right : w.isRange = true
  · simp only [VIP.portLabel, left, right, if_true, String.toList_append, dash,
      List.append_assoc] at chars
    obtain ⟨first, last⟩ := split_last (plain _) (plain _) chars
    exact ⟨UInt16.toNat_inj.1 (toString_nat_inj first), UInt16.toNat_inj.1 (toString_nat_inj last)⟩
  · simp only [VIP.portLabel, left, if_true, right, String.toList_append, dash] at chars
    exact absurd (chars ▸ by simp) (plain w.port.toNat)
  · simp only [VIP.portLabel, left, if_true, right, String.toList_append, dash] at chars
    exact absurd (chars.symm ▸ by simp) (plain v.port.toNat)
  · simp only [VIP.portLabel, left, right] at chars
    have noEnd : v.portEnd = 0 ∧ w.portEnd = 0 := by simpa [VIP.isRange] using And.intro left right
    exact ⟨UInt16.toNat_inj.1 (toString_nat_inj chars), by rw [noEnd.1, noEnd.2]⟩

theorem vipKeyString_inj {v w : VIP} (same : vipKeyString v = vipKeyString w) :
    v.address = w.address ∧ v.port = w.port ∧ v.portEnd = w.portEnd ∧ v.protocol = w.protocol := by
  -- The last colon stands in front of the protocol, the one before it in front of the label.
  have chars := congrArg String.toList same
  have colon : (":" : String).toList = [':'] := rfl
  simp only [vipKeyString, String.toList_append, colon] at chars
  rw [List.append_assoc _ [':'] v.protocol.text.toList,
    List.append_assoc _ [':'] w.protocol.text.toList] at chars
  obtain ⟨front, protocol⟩ := split_last (colon_not_mem_protocol v.protocol)
    (colon_not_mem_protocol w.protocol) chars
  rw [List.append_assoc, List.append_assoc] at front
  obtain ⟨address, label⟩ := split_last (colon_not_mem_portLabel v) (colon_not_mem_portLabel w)
    front
  obtain ⟨port, portEnd⟩ := portLabel_inj (String.toList_inj.1 label)
  exact ⟨String.toList_inj.1 address, port, portEnd,
    protocol_text_inj (String.toList_inj.1 protocol)⟩

end Rivora
