import Mathlib
import Glottis.Wave.Reader
import Glottis.Wave.Writer
import Glottis.Proofs.Checks

/-!
# Readers of wave files

A reader succeeds exactly if its steps do, one on what the other left.  A number of some
bytes is read exactly where these bytes stand, and the bytes that a number was written
to read as that number.
-/

namespace Glottis.Wave

variable {β γ : Type} {bytes rest front : Bytes}

/-! ## Numbers as bytes -/

@[simp]
theorem length_toLittleEndian (width value : Nat) :
    (toLittleEndian width value).length = width := by
  induction width generalizing value with
  | zero => rfl
  | succ width ih => rw [toLittleEndian, List.length_cons, ih]

/-- A number that fits some bytes is read from the bytes it was written to. -/
theorem ofLittleEndian_toLittleEndian {width value : Nat} (hvalue : value < 256 ^ width) :
    ofLittleEndian (toLittleEndian width value) = value := by
  induction width generalizing value with
  | zero =>
      rw [pow_zero, Nat.lt_one_iff] at hvalue
      rw [hvalue]
      rfl
  | succ width ih =>
      have hhigh : value / 256 < 256 ^ width := by
        rw [Nat.div_lt_iff_lt_mul (by decide), ← pow_succ]
        exact hvalue
      have hlow : (UInt8.ofNat (value % 256)).toNat = value % 256 :=
        Nat.mod_eq_of_lt (Nat.mod_lt _ (by decide))
      change (UInt8.ofNat (value % 256)).toNat +
        256 * ofLittleEndian (toLittleEndian width (value / 256)) = value
      rw [hlow, ih hhigh, Nat.mod_add_div]

theorem ofLittleEndian_lt (bytes : Bytes) : ofLittleEndian bytes < 256 ^ bytes.length := by
  induction bytes with
  | nil => exact Nat.one_pos
  | cons byte bytes ih =>
      have hbyte := byte.toNat_lt
      change byte.toNat + 256 * ofLittleEndian bytes < 256 ^ (bytes.length + 1)
      rw [pow_succ]
      omega

/-! ## Steps of a reader -/

theorem split?_eq_some_iff {count : Nat} :
    Reader.split? count bytes = some (front, rest) ↔
      bytes = front ++ rest ∧ front.length = count := by
  induction count generalizing bytes front with
  | zero =>
      rw [Reader.split?, Option.some.injEq, Prod.mk.injEq, List.length_eq_zero_iff]
      constructor
      · rintro ⟨rfl, rfl⟩
        exact ⟨rfl, rfl⟩
      · rintro ⟨hbytes, rfl⟩
        exact ⟨rfl, hbytes⟩
  | succ count ih =>
      cases bytes with
      | nil =>
          cases front with
          | nil => simp [Reader.split?]
          | cons byte front => simp [Reader.split?]
      | cons byte bytes =>
          cases front with
          | nil => simp [Reader.split?]
          | cons byte' front => simp [Reader.split?, ih, and_assoc, and_comm]

theorem run_take_eq_ok_iff {count : Nat} :
    (Reader.take count).run bytes = .ok (front, rest) ↔
      bytes = front ++ rest ∧ front.length = count := by
  rw [← split?_eq_some_iff, StateT.run, Reader.take]
  cases Reader.split? count bytes with
  | none => simp
  | some pair => simp

theorem run_bind_eq_ok_iff {step : Reader β} {next : β → Reader γ} {result : γ × Bytes} :
    (step >>= next).run bytes = .ok result ↔
      ∃ value rest, step.run bytes = .ok (value, rest) ∧ (next value).run rest = .ok result := by
  rw [StateT.run_bind, bind_eq_ok_iff, Prod.exists]

theorem run_pure_eq_ok_iff {value : β} {result : β × Bytes} :
    (pure value : Reader β).run bytes = .ok result ↔ (value, bytes) = result := by
  rw [StateT.run_pure, pure_eq_ok_iff]

theorem run_expect_eq_ok_iff {condition : Bool} {defect : Defect} {result : Unit × Bytes} :
    (Reader.expect condition defect).run bytes = .ok result ↔
      condition = true ∧ ((), bytes) = result := by
  cases condition with
  | true =>
      change Except.ok ((), bytes) = Except.ok result ↔ _
      rw [Except.ok.injEq]
      exact (and_iff_right rfl).symm
  | false =>
      change Except.error _ = Except.ok result ↔ _
      simp

theorem run_expect_bind_eq_ok_iff {condition : Bool} {defect : Defect} {next : Unit → Reader γ}
    {result : γ × Bytes} :
    (Reader.expect condition defect >>= next).run bytes = .ok result ↔
      condition = true ∧ (next ()).run bytes = .ok result := by
  rw [run_bind_eq_ok_iff]
  constructor
  · rintro ⟨_, _, hexpect, hnext⟩
    obtain ⟨hcondition, hresult⟩ := run_expect_eq_ok_iff.mp hexpect
    cases hresult
    exact ⟨hcondition, hnext⟩
  · rintro ⟨hcondition, hnext⟩
    exact ⟨(), bytes, run_expect_eq_ok_iff.mpr ⟨hcondition, rfl⟩, hnext⟩

theorem run_throw_ne_ok {cause : ReadError} {result : β × Bytes} :
    (throw cause : Reader β).run bytes ≠ .ok result := by
  change Except.error cause ≠ Except.ok result
  simp

theorem run_word_eq_ok_iff {width value : Nat} :
    (Reader.word width).run bytes = .ok (value, rest) ↔
      ∃ front, bytes = front ++ rest ∧ front.length = width ∧ ofLittleEndian front = value := by
  rw [Reader.word, run_bind_eq_ok_iff]
  simp only [run_take_eq_ok_iff, run_pure_eq_ok_iff, Prod.mk.injEq]
  constructor
  · rintro ⟨front, rest, ⟨hbytes, hlength⟩, hvalue, rfl⟩
    exact ⟨front, hbytes, hlength, hvalue⟩
  · rintro ⟨front, hbytes, hlength, hvalue⟩
    exact ⟨front, rest, ⟨hbytes, hlength⟩, hvalue, rfl⟩

/-! ## Reading what was written -/

theorem run_bind_of_ok {step : Reader β} {next : β → Reader γ} {value : β}
    (hstep : step.run bytes = .ok (value, rest)) :
    (step >>= next).run bytes = (next value).run rest := by
  rw [StateT.run_bind, hstep]
  rfl

theorem run_take_append {count : Nat} (hfront : front.length = count) (rest : Bytes) :
    (Reader.take count).run (front ++ rest) = .ok (front, rest) :=
  run_take_eq_ok_iff.mpr ⟨rfl, hfront⟩

theorem run_expect_of {condition : Bool} (hcondition : condition = true) (defect : Defect)
    (bytes : Bytes) : (Reader.expect condition defect).run bytes = .ok ((), bytes) :=
  run_expect_eq_ok_iff.mpr ⟨hcondition, rfl⟩

theorem run_word_append {width value : Nat} (hvalue : value < 256 ^ width) (rest : Bytes) :
    (Reader.word width).run (toLittleEndian width value ++ rest) = .ok (value, rest) :=
  run_word_eq_ok_iff.mpr ⟨_, rfl, length_toLittleEndian width value,
    ofLittleEndian_toLittleEndian hvalue⟩

/-- Every code of sixteen bits is read from its two bytes. -/
theorem signed_unsigned {code : Int} (hlow : -32768 ≤ code) (hhigh : code < 32768) :
    signed 16 (unsigned 16 code) = code := by
  have hpower : Nat.pow 2 16 = 65536 := rfl
  have hhalf : Nat.pow 2 (16 - 1) = 32768 := rfl
  rw [signed, unsigned, hpower, hhalf]
  split <;> omega

theorem unsigned_lt (code : Int) : unsigned 16 code < 256 ^ 2 := by
  have hpower : Nat.pow 2 16 = 65536 := rfl
  rw [unsigned, hpower]
  omega

/-- A list is read from the bytes of its entries, if each entry is read from its own. -/
theorem run_readMany_flatMap {read : Reader β} {toBytes : β → Bytes} {values : List β}
    (hread : ∀ value ∈ values, ∀ rest,
      read.run (toBytes value ++ rest) = .ok (value, rest)) :
    (readMany read values.length).run (values.flatMap toBytes ++ rest) = .ok (values, rest) := by
  induction values with
  | nil => rfl
  | cons value values ih =>
      rw [List.flatMap_cons, List.append_assoc, List.length_cons, readMany,
        run_bind_of_ok (hread value List.mem_cons_self _),
        run_bind_of_ok (ih fun value hvalue => hread value (List.mem_cons_of_mem _ hvalue))]
      rfl

end Glottis.Wave
