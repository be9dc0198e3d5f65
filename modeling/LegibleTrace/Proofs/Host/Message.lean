import LegibleTrace.Proofs.Host.View
import LegibleTrace.Proofs.QualifiedName.Composition

/-! The messages of an assembled chain. An exception tells its text plainly, where an empty text
counts as none, and a failure of this library tells its parts and values too. Both ways lead to
the same text, however the failure was built. -/
namespace LegibleTrace

namespace Message

/-- Parts with a value between each two. -/
def weave : List Text → List Text → Text
  | [], _ => []
  | part :: _, [] => part
  | part :: parts, value :: values => part ++ value ++ weave parts values

theorem text_eq_weave (message : Message) :
    message.text = weave message.parts message.substitutions := by
  obtain ⟨head, fills⟩ := message
  induction fills generalizing head with
  | nil => simp [text, parts, substitutions, weave]
  | cons fill fills ih =>
    have later := ih fill.2
    simp only [text, parts, substitutions, List.map_cons, List.flatMap_cons, weave] at later ⊢
    rw [← later]
    simp

variable {parts substitutions : List Text} {message : Message}

theorem ofParts_eq_ok_iff :
    ofParts parts substitutions = .ok message ↔
      message.parts = parts ∧ message.substitutions = substitutions := by
  constructor
  · intro made
    unfold ofParts at made
    split at made
    · contradiction
    · next head rest =>
      split at made
      · next fits =>
        obtain rfl := Except.ok.inj made
        simp [Message.parts, Message.substitutions, List.map_fst_zip, List.map_snd_zip, fits]
      · contradiction
  · rintro ⟨rfl, rfl⟩
    exact ofParts_parts message

end Message

/-- How failures are built, with the text, the parts and the values that each then has. -/
inductive Failure.Built : Failure → Text → List Text → List Text → Prop
  | ofText (failure : Failure) (text)
      (wraps : failure = .general (.of text) ∨ failure = .config (.of text)) :
      Built failure text [text] []
  | ofParts (failure : Failure) (parts values message)
      (fits : Message.ofParts parts values = .ok message)
      (wraps : failure = .general message ∨ failure = .config message) :
      Built failure (Message.weave parts values) parts values
  | rejected (name fault)
      (refused : (QualifiedName.validate name).1 = .error (.invalidName name fault)) :
      Built (.invalidName name fault)
        ("the class name " ++ name ++ " is not valid because " ++ fault.describe)
        ["the class name ", " is not valid because ", []] [name, fault.describe]

namespace Failure

variable {failure : Failure} {text : Text} {parts values : List Text}

theorem message_of_wraps {message : Message}
    (wraps : failure = .general message ∨ failure = .config message) :
    failure.message = message := by
  obtain rfl | rfl := wraps
  · rfl
  · rfl

theorem Built.message_eq (built : Built failure text parts values) :
    failure.message.text = text ∧ failure.message.parts = parts ∧
      failure.message.substitutions = values := by
  cases built with
  | ofText _ _ wraps =>
    rw [message_of_wraps wraps]
    exact ⟨List.append_nil text, rfl, rfl⟩
  | ofParts _ _ _ made fits wraps =>
    obtain ⟨rfl, rfl⟩ := Message.ofParts_eq_ok_iff.mp fits
    rw [message_of_wraps wraps]
    exact ⟨made.text_eq_weave, rfl, rfl⟩
  | rejected name fault refused =>
    have woven : (invalidName name fault).message.text =
        "the class name " ++ name ++ (" is not valid because " ++ fault.describe ++ ([] : Text)) :=
      Message.text_eq_weave _
    refine ⟨?_, rfl, rfl⟩
    rw [woven, List.append_nil, List.append_assoc _ _ fault.describe]

theorem built_of_validate {name : Text}
    (refused : (QualifiedName.validate name).1 = .error failure) :
    ∃ text parts values, Built failure text parts values := by
  obtain ⟨segment, fault, rfl, _⟩ := QualifiedName.exists_rejects refused
  exact ⟨_, _, _, .rejected name fault refused⟩

end Failure

namespace Host

variable {ε : Type}

/-- The entry says what the exception says. -/
structure Exception.Told (exception : Exception ε) (entry : Entry) : Prop where
  text : entry.message.text = exception.content.text
  plain : exception.message?.getD [] = entry.message.text
  foreign (text) (given : exception.content = .foreign text) :
    entry.message.parts = [text] ∧ entry.message.substitutions = []
  failure (failure) (given : exception.content = .failure failure) :
    entry.message.parts = failure.message.parts ∧
      entry.message.substitutions = failure.message.substitutions
  built (failure text parts values) (given : exception.content = .failure failure)
    (built : failure.Built text parts values) :
    exception.content.text = text ∧ entry.message.text = text ∧
      entry.message.parts = parts ∧ entry.message.substitutions = values

namespace Exception

/-- No message stands for the empty text. -/
theorem message?_getD (exception : Exception ε) :
    exception.message?.getD [] = exception.content.text := by
  rw [message?]
  split
  · next empty => exact empty.symm
  · rfl

variable {exception : Exception ε} (assembler : Assembler)

theorem message_of_foreign {text : Text} (given : exception.content = .foreign text) :
    (assembler.entry exception.throwable).message = .of text := by
  have unstructured : exception.throwable.structured = none := by rw [throwable, given]; rfl
  have plain : exception.throwable.message.getD [] = text := by
    rw [throwable, message?_getD, given, Content.text]
  rw [(assembler.shows_entry exception.throwable).text unstructured, plain]

theorem message_of_failure {failure : Failure} (given : exception.content = .failure failure) :
    (assembler.entry exception.throwable).message = failure.message := by
  have structured : exception.throwable.structured = some failure.message := by
    rw [throwable, given]
    rfl
  exact (assembler.shows_entry exception.throwable).structured _ structured

theorem text_of_entry (exception : Exception ε) :
    (assembler.entry exception.throwable).message.text = exception.content.text := by
  cases given : exception.content with
  | foreign text =>
    rw [message_of_foreign assembler given]
    exact List.append_nil text
  | failure failure => rw [message_of_failure assembler given, Content.text]

theorem told_entry (exception : Exception ε) :
    exception.Told (assembler.entry exception.throwable) where
  text := exception.text_of_entry assembler
  plain := exception.message?_getD.trans (exception.text_of_entry assembler).symm
  foreign text given := by
    rw [message_of_foreign assembler given]
    exact ⟨rfl, rfl⟩
  failure failure given := by
    rw [message_of_failure assembler given]
    exact ⟨rfl, rfl⟩
  built failure text parts values given built := by
    rw [message_of_failure assembler given, given]
    exact ⟨built.message_eq.1, built.message_eq⟩

end Exception

variable [DecidableEq ε]

theorem chain_assemble (assembler : Assembler) (heap : Heap ε) (followContext : Bool) (start : ε) :
    (assemble assembler heap followContext start).1.chain =
      ((heap.graph followContext).walk assembler.limit start).nodes.map fun exception =>
        assembler.entry (heap exception).throwable := by
  obtain ⟨_, _, recorded, _⟩ := recordedAssembly_eq assembler heap followContext start
  rw [assemble, assembleViews_eq_recorded, recorded]
  exact CauseGraph.chain_assemble _ _ _

/-- Every entry of the chain says what its exception says, be it told plainly or in parts. The
text is that of the exception. The parts and values are those of its failure, built from a text,
from parts and values that fit, or by rejecting a name; where it is no failure there are no
values. -/
theorem assemble_messages (assembler : Assembler) (heap : Heap ε) (followContext : Bool)
    (start : ε) :
    (∃ exceptions : List ε,
      (heap.graph followContext).Takes assembler.limit start exceptions ∧
      List.Forall₂ (fun exception entry => (heap exception).Told entry) exceptions
        (assemble assembler heap followContext start).1.chain) ∧
    ∀ name failure, (QualifiedName.validate name).1 = .error failure →
      ∃ text parts values, failure.Built text parts values := by
  refine ⟨⟨_, CauseGraph.takes_walk _ _ _, ?_⟩, fun name failure => Failure.built_of_validate⟩
  rw [chain_assemble, List.forall₂_map_right_iff, List.forall₂_same]
  intro exception _
  exact (heap exception).told_entry assembler

theorem messages_of_rejected_name :
    let fault : QualifiedName.Fault := .badStart "1"
    let failure : Failure := .invalidName "com.1bad" fault
    let heap : Heap Unit := fun _ =>
      ⟨"errors", "InvalidNameError", .failure failure, [], none, none, false⟩
    (QualifiedName.validate "com.1bad").1 = .error failure ∧
      (∃ text parts values, failure.Built text parts values) ∧
      (assemble .standard heap true ()).1.top.message.substitutions =
        ["com.1bad".toList, fault.describe] := by
  intro fault failure heap
  have rejected : QualifiedName.Rejects "com.1bad" "1bad" fault :=
    QualifiedName.rejects_iff.mpr (by decide)
  have refused : (QualifiedName.validate "com.1bad").1 = .error failure := by rw [rejected]
  obtain ⟨⟨exceptions, _, told⟩, built⟩ := assemble_messages .standard heap true ()
  refine ⟨refused, built _ _ refused, ?_⟩
  cases told with
  | cons top _ => exact (top.failure failure rfl).2

end Host

end LegibleTrace
