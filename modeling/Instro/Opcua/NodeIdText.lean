import Instro.Library.RustText
import Instro.Opcua.Types

/-!
# Node ids as text

`ns=N;i=K` or `ns=N;s=K`. A string id stands as it is, whatever it contains: the namespace before it
is digits, so the first semicolon is the one after the namespace, and the identifier is all the rest.
-/

namespace Instro.Opcua

open Instro.Library.RustText

/-- The identifier as it stands after the namespace. -/
def NodeIdInner.text : NodeIdInner → List Char
  | .numeric n => "i=".toList ++ decimal n.toNat
  | .string s => "s=".toList ++ s.toList

/-- `Display` -/
def OpcUaNodeId.display (id : OpcUaNodeId) : String :=
  .ofList ("ns=".toList ++ (decimal id.namespace.toNat ++ ';' :: id.inner.text))

/-- The message of an error, and the error of the number it wraps. -/
structure NodeIdError where
  message : String
  source : Option IntErrorKind := none
  deriving DecidableEq

/-- The identifier of a node id, after the namespace. -/
def NodeIdInner.parse (s : String) (rest : List Char) : Except NodeIdError NodeIdInner :=
  match stripPrefix "i=".toList rest with
  | some num =>
    match parseUnsigned UInt32.size num with
    | .ok n => .ok (.numeric (.ofNat n))
    | .error e => .error ⟨s!"OpcUaNodeId '{s}': invalid numeric id '{String.ofList num}'", some e⟩
  | none =>
    match stripPrefix "s=".toList rest with
    | some text => .ok (.string (.ofList text))
    | none => .error ⟨s!"OpcUaNodeId '{s}': identifier must start with 'i=' or 's='", none⟩

/-- `FromStr` -/
def OpcUaNodeId.fromStr (s : String) : Except NodeIdError OpcUaNodeId :=
  match stripPrefix "ns=".toList s.toList with
  | none => .error ⟨s!"OpcUaNodeId '{s}': missing 'ns=' prefix", none⟩
  | some rest =>
    match splitOnce ';' rest with
    | none => .error ⟨s!"OpcUaNodeId '{s}': missing ';' after namespace", none⟩
    | some (nsStr, rest) =>
      match parseUnsigned UInt16.size nsStr with
      | .error e => .error ⟨s!"OpcUaNodeId '{s}': invalid namespace '{String.ofList nsStr}'", some e⟩
      | .ok ns => (NodeIdInner.parse s rest).map fun inner => ⟨.ofNat ns, inner⟩

/-- The text of an identifier parses to it. It is taken as a string only if it does not begin as a
number does. -/
theorem parse_text (s : String) (inner : NodeIdInner) :
    NodeIdInner.parse s inner.text = .ok inner := by
  unfold NodeIdInner.parse NodeIdInner.text
  cases inner with
  | numeric n =>
    dsimp only
    rw [stripPrefix_append]
    dsimp only
    rw [parseUnsigned_decimal n.toNat_lt_size]
    dsimp only
    rw [UInt32.ofNat_toNat]
  | string text =>
    have hnot : stripPrefix "i=".toList ("s=".toList ++ text.toList) = none := rfl
    dsimp only
    rw [hnot, stripPrefix_append]
    dsimp only
    rw [String.ofList_toList]

/-- **Round trip.** The text of a node id parses to it. -/
theorem fromStr_display (id : OpcUaNodeId) : OpcUaNodeId.fromStr id.display = .ok id := by
  have htext : id.display.toList =
      "ns=".toList ++ (decimal id.namespace.toNat ++ ';' :: id.inner.text) := String.toList_ofList
  have hns : ';' ∉ decimal id.namespace.toNat := not_mem_decimal rfl
  unfold OpcUaNodeId.fromStr
  rw [htext, stripPrefix_append]
  dsimp only
  rw [splitOnce_append hns]
  dsimp only
  rw [parseUnsigned_decimal id.namespace.toNat_lt_size]
  dsimp only
  rw [parse_text, UInt16.ofNat_toNat]
  rfl

/-- **Node ids as text.** Display and parsing are a round trip, so no two node ids have one text, and
what parses at all has a canonical text. -/
theorem node_id_text :
    (∀ id : OpcUaNodeId, OpcUaNodeId.fromStr id.display = .ok id) ∧
      Function.Injective OpcUaNodeId.display ∧
      ∀ (s : String) (id : OpcUaNodeId), OpcUaNodeId.fromStr s = .ok id →
        OpcUaNodeId.fromStr id.display = .ok id := by
  refine ⟨fromStr_display, ?_, fun _ id _ => fromStr_display id⟩
  intro id id' h
  have hparsed := fromStr_display id
  rw [h, fromStr_display] at hparsed
  exact (Except.ok.inj hparsed).symm

example : OpcUaNodeId.fromStr "ns=+07;s=a;i=1" = .ok ⟨7, .string "a;i=1"⟩ := by decide

end Instro.Opcua
