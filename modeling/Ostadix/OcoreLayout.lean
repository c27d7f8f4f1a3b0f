import Ostadix.OcoreNames

/-! The layouts of structs and enums. -/

namespace Ostadix.Ocore

inductive Progress where
  | untouched | active | done
  deriving DecidableEq

inductive Nominal where
  | struct (id : ℕ)
  | enum (id : ℕ)
  deriving DecidableEq

structure LayoutState where
  types : TypeContext
  (structState enumState : List Progress)

def LayoutState.init (types : TypeContext) : LayoutState where
  types
  structState := types.structs.map fun _ => .untouched
  enumState := types.enums.map fun _ => .untouched

namespace LayoutState

def layoutError {α : Type} (types : TypeContext) (ty : Ty) (message : String) : Outcome α :=
  error (types.name ty ++ ": " ++ message)

section Visit

-- How the structs and enums that a type mentions are laid out first.
variable (visit : Nominal → LayoutState → Outcome LayoutState)

def layoutType : Ty → LayoutState → Outcome (Layout × LayoutState)
  | .struct id, state => do
    let state ← visit (.struct id) state
    return ((← nth state.types.structs id).layout, state)
  | .enum id, state => do
    let state ← visit (.enum id) state
    return ((← nth state.types.enums id).layout, state)
  | .array element len, state => do
    let (layout, state) ← layoutType element state
    match checkedMul layout.size len with
    | some size => return (⟨size, layout.align⟩, state)
    | none => layoutError state.types (.array element len) "array layout overflows u64"
  | ty, state => do return (← state.types.layout ty, state)

def layoutFields (packed : Bool) :
    List Ty → UInt64 → UInt64 → LayoutState →
      Outcome (List UInt64 × UInt64 × UInt64 × LayoutState)
  | [], offset, maxAlign, state => .ok ([], offset, maxAlign, state)
  | ty :: tys, offset, maxAlign, state => do
    let (layout, state) ← layoutType visit ty state
    let fieldAlign := if packed then 1 else layout.align
    let start := alignUp offset fieldAlign
    match checkedAdd start layout.size with
    | none => layoutError state.types ty "struct layout overflows u64"
    | some next => do
      let (offsets, size, align, state) ←
        layoutFields packed tys next (max maxAlign fieldAlign) state
      return (start :: offsets, size, align, state)

def setOffsets (fields : List StructField) (offsets : List UInt64) : List StructField :=
  List.zipWith (fun field offset => { field with offset }) fields offsets

def layoutStruct (id : ℕ) (state : LayoutState) : Outcome LayoutState := do
  match ← nth state.structState id with
  | .done => return state
  | .active =>
    layoutError state.types (.struct id) "recursive type has infinite size; use a pointer"
  | .untouched => do
    let definition ← nth state.types.structs id
    let state := { state with structState := state.structState.set id .active }
    let (offsets, size, align, state) ←
      layoutFields visit definition.packed (definition.fields.map (·.ty)) 0 1 state
    let align := max align (definition.requestedAlign.getD 1)
    let definition :=
      { definition with
        fields := setOffsets definition.fields offsets
        layout := ⟨alignUp size align, align⟩ }
    return { state with
      types := { state.types with structs := state.types.structs.set id definition }
      structState := state.structState.set id .done }

/-- The layout of a payload; its sums are not checked for overflow. -/
def layoutPayload : List Ty → UInt64 → UInt64 → LayoutState → Outcome (Layout × LayoutState)
  | [], offset, align, state => .ok (⟨alignUp offset align, align⟩, state)
  | ty :: tys, offset, align, state => do
    let (layout, state) ← layoutType visit ty state
    layoutPayload tys (alignUp offset layout.align + layout.size) (max align layout.align) state

def layoutVariants :
    List EnumVariant → LayoutState → Outcome (List EnumVariant × LayoutState)
  | [], state => .ok ([], state)
  | variant :: variants, state => do
    let (layout, state) ← layoutPayload visit variant.payload 0 1 state
    let (variants, state) ← layoutVariants variants state
    return ({ variant with payloadLayout := layout } :: variants, state)

def tagSize (count : ℕ) : UInt64 :=
  if count ≤ 256 then 1 else if count ≤ 65536 then 2 else 4

def layoutEnum (id : ℕ) (state : LayoutState) : Outcome LayoutState := do
  let definition ← nth state.types.enums id
  match ← nth state.enumState id with
  | .done => return state
  | .active => error s!"recursive enum `{pathString definition.name}` has infinite size"
  | .untouched => do
    let state := { state with enumState := state.enumState.set id .active }
    let tag := tagSize definition.variants.length
    let (variants, state) ← layoutVariants visit definition.variants state
    let payloadSize := variants.foldl (fun size v => max size v.payloadLayout.size) 0
    let payloadAlign := variants.foldl (fun align v => max align v.payloadLayout.align) 1
    let payloadOffset := alignUp tag payloadAlign
    let align := max payloadAlign tag
    let definition :=
      { definition with
        variants
        tagSize := tag
        payloadOffset
        layout := ⟨alignUp (payloadOffset + payloadSize) align, align⟩ }
    return { state with
      types := { state.types with enums := state.types.enums.set id definition }
      enumState := state.enumState.set id .done }

end Visit

/-- Lay out a struct or an enum. Each nested visit starts another, so their number bounds the depth.
-/
def visit : ℕ → Nominal → LayoutState → Outcome LayoutState
  | 0, _, _ => .error (.panic "layout recursion too deep")
  | fuel + 1, .struct id, state => layoutStruct (visit fuel) id state
  | fuel + 1, .enum id, state => layoutEnum (visit fuel) id state

end LayoutState

def computeLayouts (types : TypeContext) : Outcome TypeContext := do
  let fuel := types.structs.length + types.enums.length + 1
  let nominals := (List.range types.structs.length).map Nominal.struct ++
    (List.range types.enums.length).map Nominal.enum
  let state ← nominals.foldlM (fun state nominal => LayoutState.visit fuel nominal state)
    (LayoutState.init types)
  return state.types

end Ostadix.Ocore
