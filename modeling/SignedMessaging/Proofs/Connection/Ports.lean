import Mathlib.Algebra.Group.Nat.Defs
import SignedMessaging.Connection.Information
import SignedMessaging.Proofs.Value.Normal

/-!
# Ports in endpoints

A port is written into an endpoint with at most as many digits as a text may show, which
`Port.decimal` checks again.  Whatever a port was given as, as long as it is something that a
document can hold, the check cannot fail: a text has its own limit on digits
(`natAbs_lt_of_ofText?`), a finite double has at most 1024 bits (`natAbs_truncate_lt`), and an
integer of a document has 64 bits.  So a value that a document can hold has a port that can
be shown, or none (`ofValue_of_hasForm`, `natAbs_lt_of_denoted?`).
-/

namespace SignedMessaging

/-- An integer is shown where it is below the power of ten of the limit. -/
theorem Whole.tooLong_eq_false_iff {n : Int} :
    Whole.tooLong n = false ↔ n.natAbs < 10 ^ Whole.digitLimit := by
  rw [Whole.tooLong, decide_eq_false_iff_not, Nat.not_lt,
    Nat.length_toDigits_le_iff (by decide) (by decide)]

theorem Text.digitValue?_lt {c : Char} {d : Nat} (h : Text.digitValue? c = some d) : d < 10 := by
  obtain ⟨first, hfirst, rfl⟩ := Option.map_eq_some_iff.1 h
  have hrange := List.find?_some hfirst
  simp only [Bool.and_eq_true, decide_eq_true_eq] at hrange
  omega

namespace Port

variable {digit : Char → Option Nat} {cs : List Char} {ds : List Nat} {n : Int}

/-- Whatever stands between digits, each of them is one. -/
theorem lt_of_mem_digits? {separator : Char → Bool} (hdigit : ∀ {c d}, digit c = some d → d < 10)
    (h : digits? digit separator cs = some ds) : ∀ d ∈ ds, d < 10 := by
  fun_induction digits? digit separator cs generalizing ds with
  | case1 => cases h
  | case2 c =>
      obtain ⟨d, hd, rfl⟩ := Option.map_eq_some_iff.1 h
      exact List.forall_mem_singleton.2 (hdigit hd)
  | case3 => cases h
  | case4 c next rest d hd _ ih | case5 c next rest d hd _ ih =>
      obtain ⟨others, hothers, rfl⟩ := Option.map_eq_some_iff.1 h
      exact List.forall_mem_cons.2 ⟨hdigit hd, ih hothers⟩

theorem foldl_digits_lt (h : ∀ d ∈ ds, d < 10) (start : Nat) :
    ds.foldl (fun n d => 10 * n + d) start < (start + 1) * 10 ^ ds.length := by
  induction ds generalizing start with
  | nil => simp
  | cons d ds ih =>
      obtain ⟨hd, hds⟩ := List.forall_mem_cons.1 h
      calc ds.foldl (fun n d => 10 * n + d) (10 * start + d)
          < (10 * start + d + 1) * 10 ^ ds.length := ih hds _
        _ ≤ ((start + 1) * 10) * 10 ^ ds.length := Nat.mul_le_mul_right _ (by omega)
        _ = (start + 1) * 10 ^ (d :: ds).length := by
            rw [List.length_cons, Nat.pow_succ', Nat.mul_assoc]

/-- Digits denote a number with no more digits. -/
theorem ofDigits_lt (h : ∀ d ∈ ds, d < 10) : ofDigits ds < 10 ^ ds.length := by
  simpa [ofDigits] using foldl_digits_lt h 0

theorem natural?_lt (hdigit : ∀ {c d}, digit c = some d → d < 10) {magnitude : Nat}
    (h : natural? digit cs = some magnitude) : magnitude < 10 ^ Whole.digitLimit := by
  unfold natural? at h
  split at h
  · cases h
  · next found hfound =>
      split at h
      · next hlength =>
          cases h
          exact Nat.lt_of_lt_of_le (ofDigits_lt (lt_of_mem_digits? hdigit hfound))
            (Nat.pow_le_pow_right (by decide) hlength)
      · cases h

theorem natAbs_lt_of_signed? (hdigit : ∀ {c d}, digit c = some d → d < 10)
    (h : signed? digit cs = some n) : n.natAbs < 10 ^ Whole.digitLimit := by
  have hnatural : ∀ {rest : List Char} {whole : Int},
      (do let a ← natural? digit rest; pure (a : Int)) = some whole →
        whole.natAbs < 10 ^ Whole.digitLimit := by
    intro rest whole hwhole
    obtain ⟨magnitude, hmagnitude, ⟨⟩⟩ := Option.bind_eq_some_iff.1 hwhole
    exact natural?_lt hdigit hmagnitude
  unfold signed? at h
  split at h <;> obtain ⟨whole, hwhole, rfl⟩ := Option.map_eq_some_iff.1 h
  · rw [Int.natAbs_neg]
    exact hnatural hwhole
  · exact hnatural hwhole
  · exact hnatural hwhole

/-- The limit on the digits of a text is the one on the digits of an endpoint. -/
theorem natAbs_lt_of_ofText? {text : String} (h : ofText? text = some n) :
    n.natAbs < 10 ^ Whole.digitLimit :=
  natAbs_lt_of_signed? Text.digitValue?_lt h

end Port

namespace Double

theorem exponent_le {x : Double} (h : x.isFinite = true) : exponent x.rank ≤ 971 := by
  have hrank : x.rank < 2047 * 4503599627370496 := of_decide_eq_true h
  unfold exponent
  split <;> omega

/-- A number without its fraction has at most as many bits as its exponent adds to 53. -/
theorem natAbs_truncate_lt (x : Double) :
    x.truncate.natAbs < 2 ^ (53 + (exponent x.rank).toNat) := by
  have habs : x.truncate.natAbs = (ratio x.rank).1 / (ratio x.rank).2 := by
    unfold truncate
    dsimp only
    split
    · rw [Int.natAbs_neg, Int.natAbs_natCast]
    · rw [Int.natAbs_natCast]
  calc x.truncate.natAbs = (ratio x.rank).1 / (ratio x.rank).2 := habs
    _ ≤ significand x.rank * 2 ^ (exponent x.rank).toNat := Nat.div_le_self _ _
    _ < 2 ^ 53 * 2 ^ (exponent x.rank).toNat :=
        Nat.mul_lt_mul_of_pos_right (significand_lt _) (Nat.two_pow_pos _)
    _ = 2 ^ (53 + (exponent x.rank).toNat) := (Nat.pow_add _ _ _).symm

end Double

namespace Port

variable {v : Value} {n : Int}

/-- The integer of a value that a document can hold. -/
def denoted? : Value → Option Int
  | .float x => some x.truncate
  | .text s => ofText? s
  | v => v.wholeNumber?

/-- A value that a document can hold is the port that it denotes, or none; it is never
infinite. -/
theorem ofValue_of_hasForm (hform : v.HasForm) :
    ofValue v = match denoted? v with
      | some n => .ok n
      | none => .error .notInteger := by
  cases v with
  | float x =>
      have hfinite : x.rank < infinityRank := of_decide_eq_true hform
      have hinfinite : x.isInfinite = false := decide_eq_false (Nat.ne_of_lt hfinite)
      have hnumber : x.isNotANumber = false := decide_eq_false (Nat.lt_asymm hfinite)
      rw [ofValue, hinfinite, hnumber]
      rfl
  | bytes _ => exact hform.elim
  | _ => rfl

/-- Only an infinite number is refused in another way than other values that are no port. -/
theorem ofValue_eq_infinite_iff :
    ofValue v = .error .infinite ↔ ∃ x, v = .float x ∧ x.isInfinite = true := by
  constructor
  · intro h
    unfold ofValue at h
    dsimp only at h
    split at h
    · next x =>
        split at h
        · next hinfinite => exact ⟨x, rfl, hinfinite⟩
        · split at h <;> cases h
    · split at h <;> cases h
    · split at h <;> cases h
    · split at h <;> cases h
  · rintro ⟨x, rfl, hinfinite⟩
    exact if_pos hinfinite

/-- The port of a value that a document can hold can be shown. -/
theorem natAbs_lt_of_denoted? (hform : v.HasForm) (h : denoted? v = some n) :
    n.natAbs < 10 ^ Whole.digitLimit := by
  have hbits : ∀ k ≤ Whole.digitLimit, 2 ^ k ≤ 10 ^ Whole.digitLimit := fun k hk =>
    Nat.le_trans (Nat.pow_le_pow_left (by decide) k) (Nat.pow_le_pow_right (by decide) hk)
  cases v with
  | float x =>
      cases h
      have hexponent := Double.exponent_le hform
      have hlimit : Whole.digitLimit = 4300 := rfl
      exact Nat.lt_of_lt_of_le (Double.natAbs_truncate_lt x) (hbits _ (by omega))
  | text s => exact natAbs_lt_of_ofText? h
  | int _ =>
      cases h
      have hrange := of_decide_eq_true (show decide _ = true from hform)
      exact Nat.lt_of_lt_of_le (by omega) (hbits 64 (by decide))
  | bool b =>
      cases h
      cases b <;> exact Nat.lt_of_lt_of_le (by decide) (hbits 1 (by decide))
  | _ => cases h

/-- A port within the limit stands in an endpoint. -/
theorem written_of_natAbs_lt (h : n.natAbs < 10 ^ Whole.digitLimit) :
    written (.int n) = .ok (String.ofList (Whole.text n)) := by
  change decimal n = _
  rw [decimal, Whole.tooLong_eq_false_iff.2 h]
  rfl

end Port
end SignedMessaging
