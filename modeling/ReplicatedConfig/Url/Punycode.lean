/-!
# Punycode

A label of a name is written in ASCII even if it is not.  In front stand its ASCII
characters with a dash behind them, and then, by one number each, the others in the order
of their own numbers.  Such a number says how many steps lie between the place of the
character before and its own, where a step goes on by one place, and from the end of the
label to its start and to the next higher character.

The digits are the letters and then the ten digits, the lowest digit first.  A digit below
its threshold is the last of a number.  Thresholds adapt to the size of the numbers read so
far, so that characters of one script take few digits.
-/

namespace ReplicatedConfig.Url.Punycode

/-- Numbers are kept below this bound. -/
def bound : Nat := 4294967296

/-- The value of a digit: a letter in either case, or one of the ten digits. -/
def digit? (c : Char) : Option Nat :=
  if 97 ≤ c.toNat ∧ c.toNat ≤ 122 then some (c.toNat - 97)
  else if 65 ≤ c.toNat ∧ c.toNat ≤ 90 then some (c.toNat - 65)
  else if 48 ≤ c.toNat ∧ c.toNat ≤ 57 then some (c.toNat - 22)
  else none

/-- The threshold of a digit.  `step` is 36 for the first digit and goes up by 36. -/
def threshold (bias step : Nat) : Nat := max 1 (min 26 (step - bias))

/-- The steps of a number behind those that make `place`, and what follows its digits. -/
def number? (bias place weight step : Nat) : List Char → Option (Nat × List Char)
  | [] => none
  | c :: cs => do
    let d ← digit? c
    let place := place + d * weight
    let t := threshold bias step
    if bound ≤ place then none
    else if d < t then some (place, cs)
    else if bound ≤ weight * (36 - t) then none
    else number? bias place (weight * (36 - t)) (step + 36) cs

theorem length_lt_of_number? {bias place weight step : Nat} {cs : List Char}
    {r : Nat × List Char} (h : number? bias place weight step cs = some r) :
    r.2.length < cs.length := by
  induction cs generalizing place weight step with
  | nil => simp [number?] at h
  | cons c cs ih =>
    simp only [number?, Option.bind_eq_bind, Option.bind_eq_some_iff] at h
    obtain ⟨d, -, h⟩ := h
    split at h
    · simp at h
    · split at h
      · obtain rfl := Option.some.inj h
        simp
      · split at h
        · simp at h
        · have := ih h
          simp only [List.length_cons]
          omega

/-- How often a number can be divided by 35 before it is small, and what is left. -/
def shrink (delta : Nat) : Nat × Nat :=
  if 455 < delta then
    let (n, left) := shrink (delta / 35)
    (n + 1, left)
  else (0, delta)
termination_by delta
decreasing_by exact Nat.div_lt_self (by omega) (by omega)

/-- The bias after a number, with `count` characters in the label. -/
def adapted (delta count : Nat) (isFirst : Bool) : Nat :=
  let delta := if isFirst then delta / 700 else delta / 2
  let (n, left) := shrink (delta + delta / count)
  36 * n + 36 * left / (left + 38)

/-- Puts the characters that the numbers stand for into a label.  The one before had the
code `code` and stands at the place before `place`. -/
def insertAll? (label : List Char) (bias code place : Nat) (cs : List Char) :
    Option (List Char) :=
  match cs with
  | [] => some label
  | c :: cs =>
    match h : number? bias place 1 36 (c :: cs) with
    | none => none
    | some (steps, rest) =>
      let count := label.length + 1
      let code := code + steps / count
      let here := steps % count
      if code.isValidChar then
        insertAll? (label.take here ++ Char.ofNat code :: label.drop here)
          (adapted (steps - place) count (place == 0)) code (here + 1) rest
      else none
termination_by cs.length
decreasing_by
  have := length_lt_of_number? h
  simpa using this

/-- The label that a text stands for.  A dash in front of everything separates nothing. -/
def decode? (cs : List Char) : Option (List Char) :=
  let digits := (cs.reverse.takeWhile (· != '-')).reverse
  let plain := cs.take (cs.length - digits.length - 1)
  if plain.isEmpty then insertAll? [] 72 128 0 cs else insertAll? plain 72 128 0 digits

end ReplicatedConfig.Url.Punycode
