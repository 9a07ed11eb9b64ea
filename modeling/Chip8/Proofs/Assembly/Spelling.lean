import Chip8.Proofs.Assembly.Counterpart

/-!
# Operands that are spelled differently

The encoder asks few questions about an operand: which register it names, which number it is,
whether it is a label, and whether it is one of the special names. Two operands for which all
answers are the same can stand for each other. `Alike` says so, and what follows is that the encoder
finds the same word in them, or refuses them for the same reason.

The same reason is not the same problem, since a problem quotes an operand as it was written. So
problems are compared without their quotes.

## Main definitions

* `Problem.unquoted`, `Refusal.unquoted` — what remains of a problem
* `Agree` — answers that differ at most in quotes
* `Alike` — operands that can stand for each other

## Main results

* `agree_encode` — statements whose operands are alike
* `Counterpart.of_alike` — and that they are counterparts
-/

namespace Chip8.Assembly

open Text

/-! ### Quotes -/

/-- A problem without the text that it quotes. -/
def Problem.unquoted : Problem → Problem
  | emptyOperand _ => emptyOperand ""
  | duplicateLabel _ => duplicateLabel ""
  | unknownOperation _ => unknownOperation ""
  | notRegister _ => notRegister ""
  | notNumber unit _ => notNumber unit ""
  | tooLarge unit _ => tooLarge unit ""
  | unknownLabel _ => unknownLabel ""
  | addressTooLarge _ => addressTooLarge ""
  | wrongCount op arity found => wrongCount op arity found
  | jumpRegister => jumpRegister
  | programTooLong size limit => programTooLong size limit

/-- A refusal without the text that it quotes. -/
def Refusal.unquoted (r : Refusal) : Refusal := ⟨r.line, r.problem.unquoted⟩

variable {α β : Type}

/-- The same result, or problems that differ at most in what they quote. -/
def Agree (x y : Except Problem α) : Prop :=
  x.mapError Problem.unquoted = y.mapError Problem.unquoted

namespace Agree

variable {x y : Except Problem α}

theorem refl (x : Except Problem α) : Agree x x := rfl

theorem eq_ok {a : α} (h : Agree x (.ok a)) : x = .ok a := by
  cases x with
  | error p => cases h
  | ok a' => exact congrArg Except.ok (Except.ok.inj h)

theorem exists_eq_error {p : Problem} (h : Agree x (.error p)) :
    ∃ p', x = .error p' ∧ p'.unquoted = p.unquoted := by
  cases x with
  | error p' => exact ⟨p', rfl, Except.error.inj h⟩
  | ok a => cases h

theorem bind {f f' : α → Except Problem β} (hx : Agree x y) (hf : ∀ a, Agree (f a) (f' a)) :
    Agree (x >>= f) (y >>= f') := by
  rw [Agree, mapError_bind, mapError_bind, hx]
  exact congrArg (_ >>= ·) (funext hf)

theorem map (hx : Agree x y) (f : α → β) :
    Agree (do return f (← x)) (do return f (← y)) :=
  hx.bind fun a => refl (pure (f a))

theorem ite {p q : Prop} [Decidable p] [Decidable q] {x' y' : Except Problem α} (hpq : p ↔ q)
    (hx : Agree x y) (hy : Agree x' y') :
    Agree (if p then x else x') (if q then y else y') := by
  by_cases hp : p
  · rwa [if_pos hp, if_pos (hpq.mp hp)]
  · rwa [if_neg hp, if_neg (hp ∘ hpq.mpr)]

end Agree

/-! ### Operands -/

/-- Operands that can stand for each other: every question about them has the same answer. -/
structure Alike (labels : Labels) (a b : List Char) : Prop where
  register : register? a = register? b
  numeral : numeral? a = numeral? b
  label : labels.lookup (upper a) = labels.lookup (upper b)
  target : special? specialTargets a = special? specialTargets b
  source : special? specialSources a = special? specialSources b
  index : upper a = ['I'] ↔ upper b = ['I']
  base : upper a = ['V', '0'] ↔ upper b = ['V', '0']

variable {labels : Labels} {a b c a' b' c' : List Char}

/-- All questions but the one for a number are about the capitals. -/
theorem Alike.of_upper (hu : upper a = upper b) (hn : numeral? a = numeral? b) :
    Alike labels a b where
  register := by rw [register?, register?, hu]
  numeral := hn
  label := by rw [hu]
  target := by rw [special?, special?, hu]
  source := by rw [special?, special?, hu]
  index := by rw [hu]
  base := by rw [hu]

theorem Alike.agree_register (h : Alike labels a b) :
    Agree (Assembly.register a) (Assembly.register b) := by
  rw [Assembly.register, Assembly.register, h.register]
  cases register? b <;> rfl

theorem Alike.agree_number (h : Alike labels a b) (unit : Unit) :
    Agree (number unit a) (number unit b) := by
  rw [number, number, h.numeral]
  cases numeral? b with
  | none => rfl
  | some v => exact .ite Iff.rfl (.refl _) rfl

theorem Alike.agree_address (h : Alike labels a b) :
    Agree (address labels a) (address labels b) := by
  have hvalue : addressValue? labels a = addressValue? labels b := by
    rw [addressValue?, addressValue?, h.label, h.numeral]
  rw [address, address, hvalue]
  cases addressValue? labels b with
  | none => rfl
  | some v => exact .ite Iff.rfl (.refl _) rfl

/-! ### Words -/

theorem agree_registerOrByte (h : Alike labels b b') (ofRegister ofByte : Nat → Nat → Nat)
    (x : Nat) :
    Agree (registerOrByte ofRegister ofByte x b) (registerOrByte ofRegister ofByte x b') := by
  rw [registerOrByte, registerOrByte, h.register]
  cases register? b' with
  | some y => rfl
  | none => exact (h.agree_number .byte).map (ofByte x)

theorem agree_twoRegisters (ha : Alike labels a a') (hb : Alike labels b b') (family last : Nat) :
    Agree (twoRegisters family last a b) (twoRegisters family last a' b') :=
  ha.agree_register.bind fun x => hb.agree_register.map (wordXY family x · last)

theorem agree_loadWord (ha : Alike labels a a') (hb : Alike labels b b') :
    Agree (loadWord labels a b) (loadWord labels a' b') := by
  rw [loadWord, loadWord, ha.target, hb.source]
  refine .ite ha.index (hb.agree_address.map _) ?_
  cases special? specialTargets a' with
  | some low => exact hb.agree_register.map _
  | none =>
    refine ha.agree_register.bind fun x => ?_
    cases special? specialSources b' with
    | some low => rfl
    | none => exact agree_registerOrByte hb _ _ x

theorem agree_addWord (ha : Alike labels a a') (hb : Alike labels b b') :
    Agree (addWord a b) (addWord a' b') :=
  .ite ha.index (hb.agree_register.map _)
    (ha.agree_register.bind fun x => agree_registerOrByte hb _ _ x)

variable {op : Operation} {operands operands' : List (List Char)} {arity : Arity}

/-- The same word is put together from operands that are alike. -/
theorem agree_instructionWord (ha : op.arity = some arity)
    (hc : arity.admits operands.length = true)
    (ho : List.Forall₂ (Alike labels) operands operands') :
    Agree (instructionWord labels op operands) (instructionWord labels op operands') := by
  cases op with
  | db | dw => cases ha
  | cls | ret => exact .refl _
  | call =>
    obtain ⟨a, rfl⟩ := exists_eq_singleton ha hc
    obtain _ | ⟨h, _ | _⟩ := ho
    exact h.agree_address.map _
  | skp | sknp =>
    obtain ⟨a, rfl⟩ := exists_eq_singleton ha hc
    obtain _ | ⟨h, _ | _⟩ := ho
    exact h.agree_register.map _
  | jp =>
    rcases exists_eq_singleton_or_pair ha hc with ⟨a, rfl⟩ | ⟨v, a, rfl⟩
    · obtain _ | ⟨h, _ | _⟩ := ho
      exact h.agree_address.map _
    · obtain _ | ⟨hv, _ | ⟨h, _ | _⟩⟩ := ho
      exact .ite hv.base (h.agree_address.map _) (.refl _)
  | shr | shl =>
    rcases exists_eq_singleton_or_pair ha hc with ⟨a, rfl⟩ | ⟨a, b, rfl⟩
    · obtain _ | ⟨h, _ | _⟩ := ho
      exact h.agree_register.bind fun x => .refl _
    · obtain _ | ⟨h, _ | ⟨h', _ | _⟩⟩ := ho
      exact agree_twoRegisters h h' _ _
  | se | sne =>
    obtain ⟨a, b, rfl⟩ := exists_eq_pair ha hc
    obtain _ | ⟨h, _ | ⟨h', _ | _⟩⟩ := ho
    exact h.agree_register.bind fun x => agree_registerOrByte h' _ _ x
  | ld =>
    obtain ⟨a, b, rfl⟩ := exists_eq_pair ha hc
    obtain _ | ⟨h, _ | ⟨h', _ | _⟩⟩ := ho
    exact agree_loadWord h h'
  | add =>
    obtain ⟨a, b, rfl⟩ := exists_eq_pair ha hc
    obtain _ | ⟨h, _ | ⟨h', _ | _⟩⟩ := ho
    exact agree_addWord h h'
  | or | and | xor | sub | subn =>
    obtain ⟨a, b, rfl⟩ := exists_eq_pair ha hc
    obtain _ | ⟨h, _ | ⟨h', _ | _⟩⟩ := ho
    exact agree_twoRegisters h h' _ _
  | rnd =>
    obtain ⟨a, b, rfl⟩ := exists_eq_pair ha hc
    obtain _ | ⟨h, _ | ⟨h', _ | _⟩⟩ := ho
    exact h.agree_register.bind fun x => (h'.agree_number .byte).map _
  | drw =>
    obtain rfl := Option.some.inj ha
    obtain ⟨a, b, c, rfl⟩ := List.length_eq_three.mp (beq_iff_eq.mp hc)
    obtain _ | ⟨h, _ | ⟨h', _ | ⟨h'', _ | _⟩⟩⟩ := ho
    exact h.agree_register.bind fun x => h'.agree_register.bind fun y =>
      (h''.agree_number .nibble).map _

/-! ### Statements -/

theorem agree_numbers (ho : List.Forall₂ (Alike labels) operands operands') (unit : Unit) :
    Agree (operands.mapM (number unit)) (operands'.mapM (number unit)) :=
  mapM_congr_of_forall₂ (ho.imp fun _ _ h => h.agree_number unit)

/-- Statements of one operation are encoded alike if their operands are alike. -/
theorem agree_encode (operation : List Char)
    (ho : List.Forall₂ (Alike labels) operands operands') :
    Agree (encode labels ⟨operation, operands⟩) (encode labels ⟨operation, operands'⟩) := by
  cases hop : Operation.ofName? operation with
  | none =>
    rw [encode, encode, hop]
    rfl
  | some op =>
    obtain rfl := ofName?_eq_some_iff.mp hop
    cases ha : op.arity with
    | some arity =>
      rw [encode_of_arity rfl ha, encode_of_arity rfl ha, ho.length_eq]
      by_cases hc : arity.admits operands'.length = true
      · rw [if_pos hc, if_pos hc]
        exact (agree_instructionWord ha (ho.length_eq ▸ hc) ho).map bytesOfWord
      · rw [if_neg hc, if_neg hc]
        exact .refl _
    | none =>
      rw [encode, encode, ofName?_name]
      cases op with
      | db => exact (agree_numbers ho .byte).map _
      | dw => exact (agree_numbers ho .word).map _
      | _ => cases ha

theorem Counterpart.of_alike {n : Nat} {operation : List Char}
    (ho : ∀ labels : Labels, labels.Named → List.Forall₂ (Alike labels) operands operands') :
    Counterpart Refusal.unquoted Refusal.unquoted ⟨n, .statement ⟨operation, operands⟩⟩
      ⟨n, .statement ⟨operation, operands'⟩⟩ := by
  have hlength := (ho [] fun _ _ hl => nomatch hl).length_eq
  refine .statement (fun _ _ => rfl) (by rw [Statement.size, Statement.size, hlength]) ?_
  intro labels hn
  have h := congrArg (Except.mapError (Refusal.mk n))
    (agree_encode operation (ho labels hn))
  rw [mapError_mapError, mapError_mapError] at h
  exact h

end Chip8.Assembly
