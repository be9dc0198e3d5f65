import LegibleTrace.Text.Numeral

/-! Messages keep the values that were put into their text apart from it. A message is its
first part and then each value with the part that follows it, so the numbers of parts and
values always fit. -/
namespace LegibleTrace

structure Message where
  head : Text
  fills : List (Text × Text)
deriving DecidableEq

namespace Message

structure CountMismatch where
  parts : Nat
  substitutions : Nat
deriving DecidableEq

def CountMismatch.message (fault : CountMismatch) : Text :=
  "Message needs " ++ Text.ofNat (fault.substitutions + 1) ++ " parts for "
    ++ Text.ofNat fault.substitutions ++ " substitutions, got " ++ Text.ofNat fault.parts

def of (text : Text) : Message := ⟨text, []⟩

def ofParts (parts substitutions : List Text) : Except CountMismatch Message :=
  match parts with
  | [] => .error ⟨0, substitutions.length⟩
  | head :: rest =>
    if rest.length = substitutions.length then .ok ⟨head, substitutions.zip rest⟩
    else .error ⟨rest.length + 1, substitutions.length⟩

def parts (message : Message) : List Text :=
  message.head :: message.fills.map (·.2)

def substitutions (message : Message) : List Text :=
  message.fills.map (·.1)

def text (message : Message) : Text :=
  message.head ++ message.fills.flatMap fun (value, part) => value ++ part

theorem ofParts_parts (message : Message) :
    ofParts message.parts message.substitutions = .ok message := by
  obtain ⟨head, fills⟩ := message
  have rejoined : (fills.map (·.1)).zip (fills.map (·.2)) = fills := by
    induction fills with
    | nil => rfl
    | cons fill fills ih => simp [ih]
  simp [ofParts, parts, substitutions, rejoined]

end Message
end LegibleTrace
