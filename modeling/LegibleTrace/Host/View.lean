import LegibleTrace.Host.Exception

/-! Views of live exceptions. A view is made when it is first asked for and registered, so
that one exception always has the same view; views are told apart by their number. -/
namespace LegibleTrace.Host

structure View (ε : Type) where
  number : Nat
  exception : ε
deriving DecidableEq

structure Registry (ε : Type) where
  views : List (View ε)

namespace Registry

variable {ε : Type} [DecidableEq ε]

def empty : Registry ε := ⟨[]⟩

def find? (registry : Registry ε) (exception : ε) : Option (View ε) :=
  registry.views.find? (·.exception = exception)

/-- The registered view of an exception, or a new one under the next number. -/
def view (exception : ε) : StateM (Registry ε) (View ε) := do
  let registry ← get
  match registry.find? exception with
  | some view => return view
  | none =>
    let view : View ε := ⟨registry.views.length, exception⟩
    set (Registry.mk (view :: registry.views))
    return view

end Registry

variable {ε : Type} [DecidableEq ε]

def View.cause (heap : Heap ε) (followContext : Bool) (view : View ε) :
    StateM (Registry ε) (Option (View ε)) :=
  match (heap view.exception).causeOf followContext with
  | none => return none
  | some exception => some <$> Registry.view exception

/-- Assembly through views that share a registry. -/
def assembleViews (assembler : Assembler) (heap : Heap ε) (followContext : Bool) (start : ε) :
    StateM (Registry ε) (Trace × List Log.Event) := do
  let view ← Registry.view start
  assembler.assembleWith (fun view : View ε => (heap view.exception).throwable)
    (View.cause heap followContext) view

def assemble (assembler : Assembler) (heap : Heap ε) (followContext : Bool) (start : ε) :
    Trace × List Log.Event :=
  ((assembleViews assembler heap followContext start).run Registry.empty).1

end LegibleTrace.Host
