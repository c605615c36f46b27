import ApiClient.Proofs.BodyPartition
import ApiClient.Proofs.CommentSources
import ApiClient.Proofs.ParameterGroups

namespace ApiClient

section FirstUses

variable {α κ : Type} [DecidableEq κ] {key : α → κ} {taken : List κ}

end FirstUses

def PropertyGroup.memberNames : PropertyGroup → List String
  | inherited _ => []
  | fields properties => properties.map Property.name

/-- The members of every block have names of their own. -/
def Interface.HasDistinctMembers (i : Interface) : Prop :=
  ∀ group ∈ i.props, group.memberNames.Nodup

instance (i : Interface) : Decidable i.HasDistinctMembers :=
  inferInstanceAs (Decidable (∀ group ∈ i.props, group.memberNames.Nodup))

namespace Endpoint

variable [Text.Transliteration] {d : Document} {t : Typing} {e : Endpoint}
  {own shared : List Parameter}

end Endpoint

section Schemas

open SchemaNode

variable [Text.Transliteration] {d : Document} {t : Typing} {style : EnumStyle}

end Schemas

namespace Run

variable [Text.Transliteration] {r : Run} {c : Client}

end Run

end ApiClient

namespace ApiClient.Run

def propertiesTree (keys : List String) : List (String × Json) :=
  [("properties", .object (keys.map fun key => (key, .object [])))]

def shelterTree (keys : List String) : Json :=
  documentTree [("/pets/{id}", .object [("get", operationTree "find" ["pet"] ["page"])])]
    [("Pet", .object
      (("allOf", .array [.object (propertiesTree ["name"])]) :: propertiesTree keys))]

def listsParametersOnce (r : Run) : Bool :=
  r.document.spec.endpoints.all fun e =>
    match Endpoint.declaredIn r.document e.operation.parameters with
    | .ok own => decide (own.map Parameter.key).Nodup
    | .error _ => true

theorem nodup_keys_of_listsParametersOnce {r : Run} (h : r.listsParametersOnce = true) :
    ∀ e ∈ r.document.spec.endpoints, ∀ own,
      r.document.ResolvesTo e.operation.parameters own → (own.map Parameter.key).Nodup := by
  intro e he own hown
  have hlisted := List.all_eq_true.1 h e he
  rw [Endpoint.declaredIn_eq_ok_iff.2 hown] at hlisted
  simpa using hlisted

/-- Two keys that differ in a bracket. -/
def bracketRun : Run :=
  .ofTree .default (shelterTree ["tags", "tags[]"]) (by decide +kernel)

theorem not_members_distinct : ¬ ∀ (r : Run) (c : Client), r.overrides = .none →
    r.client = .ok c →
    (∀ e ∈ r.document.spec.endpoints, ∀ own shared,
      r.document.ResolvesTo e.operation.parameters own →
      r.document.ResolvesTo e.pathParameters shared →
        (own.map Parameter.key).Nodup ∧ (shared.map Parameter.key).Nodup) →
    ∀ i ∈ c.interfaces, i.HasDistinctMembers := by
  intro distinct
  obtain ⟨c, hc, hmembers⟩ : ∃ c, bracketRun.client = .ok c ∧
      c.interfaces.all (fun i => decide i.HasDistinctMembers) = false :=
    exists_ok_of_map (by decide +kernel)
  have hkeys := nodup_keys_of_listsParametersOnce (r := bracketRun) (by decide +kernel)
  have hshared : ∀ e ∈ bracketRun.document.spec.endpoints, e.pathParameters = [] := by
    decide +kernel
  have hall := distinct bracketRun c rfl hc fun e he own shared hown hresolved => by
    rw [hshared e he] at hresolved
    cases hresolved
    exact ⟨hkeys e he own hown, List.nodup_nil⟩
  have htrue : c.interfaces.all (fun i => decide i.HasDistinctMembers) = true :=
    List.all_eq_true.2 fun i hi => decide_eq_true (hall i hi)
  rw [hmembers] at htrue
  cases htrue

end ApiClient.Run
