import KNex.Contracts.Authorization
import KNex.Core.JsMap

/-!
# Owners that grants make effective

`packages/runtime/src/effective-authority.ts`: the resolver reads the roles, grants, assignments
and generation rows of an application and files the owner of every grant of a held role under
the permission, apart by whether the owner's generation has a current row. A decision allows
only owners of the first map.

An owner is compared through a text of its parts. `ownerKey_injective` is why this is a
comparison of the parts: the number stands after the last colon, and no class has one.
-/
namespace KNex.Runtime.EffectiveAuthority

open KNex.Core KNex.Contracts

/-! ## Owners -/

/-- `AuthorizationOwnerRef`; the namespace of the platform is always `system`. -/
inductive OwnerRef where
  | platform
  | extension (owner : ExtensionOwner)
  deriving DecidableEq, Repr

/-- mirrors packages/runtime/src/effective-authority.ts:97-101 -/
def ownerKey : OwnerRef → String
  | .platform => "platform:system"
  | .extension o => "extension:" ++ DeliveryClass.text o.deliveryClass ++ ":" ++ o.extensionId ++
      ":" ++ toString o.generation

/-- mirrors packages/runtime/src/effective-authority.ts:103-105 -/
def sameOwner (left right : OwnerRef) : Bool := ownerKey left = ownerKey right

/-- mirrors packages/runtime/src/effective-authority.ts:107-109 -/
def generationCurrent (owner : OwnerRef) (generations : List GenerationRow) : Bool :=
  owner = .platform ||
    generations.any fun g => g.state = .current && sameOwner owner (.extension g.owner)

theorem colon_not_mem_toString (n : Nat) : ':' ∉ (toString n).toList := by
  rw [Nat.toString_eq_repr, Nat.toList_repr]
  intro h
  have := Nat.isDigit_of_mem_toDigits (by decide) (by decide) h
  revert this
  decide

theorem colon_not_mem_text (c : DeliveryClass) : ':' ∉ (DeliveryClass.text c).toList := by
  cases c <;> decide

theorem text_injective {c d : DeliveryClass}
    (h : (DeliveryClass.text c).toList = (DeliveryClass.text d).toList) : c = d := by
  revert h
  cases c <;> cases d <;> decide

theorem ownerKey_extension (o : ExtensionOwner) :
    (ownerKey (.extension o)).toList = "extension:".toList ++
      ((DeliveryClass.text o.deliveryClass).toList ++
        ':' :: (o.extensionId.toList ++ ':' :: (toString o.generation).toList)) := by
  simp [ownerKey, String.toList_append]

theorem ownerKey_injective {o p : ExtensionOwner}
    (h : ownerKey (.extension o) = ownerKey (.extension p)) : o = p := by
  rw [← String.toList_inj, ownerKey_extension, ownerKey_extension,
    List.append_cancel_left_eq] at h
  obtain ⟨hc, h⟩ := append_sep_cancel (colon_not_mem_text _) (colon_not_mem_text _) h
  -- the extension id may hold colons, so the number is found from the end
  have hrev := congrArg List.reverse h
  simp only [List.reverse_append, List.reverse_cons, List.append_assoc, List.singleton_append] at hrev
  obtain ⟨hg, hx⟩ := append_sep_cancel (by simpa using colon_not_mem_toString o.generation)
    (by simpa using colon_not_mem_toString p.generation) hrev
  rw [List.reverse_inj, String.toList_inj] at hg
  rw [List.reverse_inj, String.toList_inj] at hx
  have hclass := text_injective hc
  have hnumber : o.generation = p.generation := toString_nat_injective hg
  cases o
  cases p
  simp only at hclass hx hnumber
  rw [hclass, hx, hnumber]

/-- An extension's owner is current when one of the rows says so. -/
theorem generationCurrent_extension {o : ExtensionOwner} {generations : List GenerationRow} :
    generationCurrent (.extension o) generations = true ↔
      ∃ g ∈ generations, g.state = .current ∧ g.owner = o := by
  unfold generationCurrent sameOwner
  simp only [reduceCtorEq, decide_false, Bool.false_or, List.any_eq_true, Bool.and_eq_true,
    decide_eq_true_eq]
  constructor
  · rintro ⟨g, hg, hs, hk⟩
    exact ⟨g, hg, hs, (ownerKey_injective hk).symm⟩
  · rintro ⟨g, hg, hs, rfl⟩
    exact ⟨g, hg, hs, rfl⟩

/-! ## Authority of an actor -/

structure Role where
  id : String
  deriving DecidableEq, Repr

inductive AssignmentState where
  | active | revoked
  deriving DecidableEq, Repr

structure RoleAssignment where
  roleId : String
  state : AssignmentState
  deriving DecidableEq, Repr

structure RolePermissionGrant where
  roleId : String
  permissionId : String
  owner : OwnerRef
  deriving DecidableEq, Repr

/-- mirrors packages/runtime/src/effective-authority.ts:188-191 -/
def roleIds (assignments : List RoleAssignment) (roles : List Role) : List String :=
  (assignments.filter fun a =>
    a.state = .active && (roles.map (·.id)).contains a.roleId).map (·.roleId)

/-- The owners filed so far, apart by effectiveness. -/
structure OwnerMaps where
  owners : JsMap String (List OwnerRef)
  ineffectiveOwners : JsMap String (List OwnerRef)

def addOwner (m : JsMap String (List OwnerRef)) (grant : RolePermissionGrant) :
    JsMap String (List OwnerRef) :=
  let current := (m.get? grant.permissionId).getD []
  m.set grant.permissionId
    (if current.any fun o => sameOwner o grant.owner then current else current ++ [grant.owner])

/-- One turn of the loop over the grants.
mirrors packages/runtime/src/effective-authority.ts:198-204 -/
def fileGrant (rolesForActor : List String) (generations : List GenerationRow) (m : OwnerMaps)
    (grant : RolePermissionGrant) : OwnerMaps :=
  if ¬ rolesForActor.contains grant.roleId then m
  else if generationCurrent grant.owner generations then
    { m with owners := addOwner m.owners grant }
  else { m with ineffectiveOwners := addOwner m.ineffectiveOwners grant }

structure CachedAuthority where
  activeAssignments : Nat
  revokedAssignments : Nat
  ownersByPermission : JsMap String (List OwnerRef)
  ineffectiveOwnersByPermission : JsMap String (List OwnerRef)

/-- The lists of a map are sorted by `localeCompare`, a parameter. -/
def sortOwners (sort : List OwnerRef → List OwnerRef) (m : JsMap String (List OwnerRef)) :
    JsMap String (List OwnerRef) where
  entries := m.entries.map fun (k, v) => (k, sort v)
  nodup := by
    have h := m.nodup
    simpa [Function.comp_def] using h

/-- mirrors packages/runtime/src/effective-authority.ts:193-211 -/
def authority (sort : List OwnerRef → List OwnerRef) (assignments : List RoleAssignment)
    (roles : List Role) (grants : List RolePermissionGrant) (generations : List GenerationRow) :
    CachedAuthority :=
  let m := grants.foldl (fileGrant (roleIds assignments roles) generations)
    ⟨JsMap.empty, JsMap.empty⟩
  { activeAssignments := (assignments.filter (·.state = .active)).length
    revokedAssignments := (assignments.filter (·.state = .revoked)).length
    ownersByPermission := sortOwners sort m.owners
    ineffectiveOwnersByPermission := sortOwners sort m.ineffectiveOwners }

/-! ## What an effective owner stands for -/

/-- `Q` holds of every permission and owner filed. -/
def Filed (Q : String → OwnerRef → Prop) (m : JsMap String (List OwnerRef)) : Prop :=
  ∀ p os, m.get? p = some os → ∀ o ∈ os, Q p o

/-- Every owner filed as effective is current. -/
def AllCurrent (generations : List GenerationRow) (m : JsMap String (List OwnerRef)) : Prop :=
  ∀ p os, m.get? p = some os → ∀ o ∈ os, generationCurrent o generations = true

theorem addOwner_filed {Q : String → OwnerRef → Prop} {m : JsMap String (List OwnerRef)}
    {grant : RolePermissionGrant} (hq : Q grant.permissionId grant.owner) (h : Filed Q m) :
    Filed Q (addOwner m grant) := by
  have hold : ∀ o ∈ (m.get? grant.permissionId).getD [], Q grant.permissionId o := by
    intro o ho
    cases hg : m.get? grant.permissionId with
    | none => rw [hg] at ho; cases ho
    | some os => rw [hg] at ho; exact h _ os hg o ho
  intro p os hp o ho
  unfold addOwner at hp
  dsimp only at hp
  rw [JsMap.get?_set] at hp
  split at hp
  · rename_i hpe
    subst hpe
    cases hp
    split at ho
    · exact hold o ho
    · rcases List.mem_append.mp ho with ho | ho
      · exact hold o ho
      · rw [List.mem_singleton.mp ho]; exact hq
  · exact h p os hp o ho

theorem fileGrant_filed {Q : String → OwnerRef → Prop} {rs : List String}
    {generations : List GenerationRow} {m : OwnerMaps} {grant : RolePermissionGrant}
    (hq : rs.contains grant.roleId = true → generationCurrent grant.owner generations = true →
      Q grant.permissionId grant.owner) (h : Filed Q m.owners) :
    Filed Q (fileGrant rs generations m grant).owners := by
  unfold fileGrant
  split
  · exact h
  · rename_i hrole
    split
    · rename_i hcur
      exact addOwner_filed (hq (by simpa using hrole) hcur) h
    · exact h

theorem get?_sortOwners {sort : List OwnerRef → List OwnerRef} {m : JsMap String (List OwnerRef)}
    {p : String} {os : List OwnerRef} (h : (sortOwners sort m).get? p = some os) :
    ∃ os', m.get? p = some os' ∧ os = sort os' := by
  rw [JsMap.get?_eq_some] at h
  obtain ⟨⟨k, v⟩, hm, he⟩ := List.mem_map.mp h
  cases he
  exact ⟨v, JsMap.get?_eq_some.mpr hm, rfl⟩

/-- A grant of the permission to the owner, by a role that is held, while the owner is current. -/
def Granted (assignments : List RoleAssignment) (roles : List Role)
    (grants : List RolePermissionGrant) (generations : List GenerationRow) (permissionId : String)
    (owner : OwnerRef) : Prop :=
  ∃ grant ∈ grants, grant.permissionId = permissionId ∧ grant.owner = owner ∧
    grant.roleId ∈ roleIds assignments roles ∧ generationCurrent owner generations = true

/-- **Every effective owner was granted**, for any sort that invents no owner. -/
theorem authority_granted {sort : List OwnerRef → List OwnerRef}
    (hsort : ∀ l, (sort l).Perm l) (assignments : List RoleAssignment) (roles : List Role)
    (grants : List RolePermissionGrant) (generations : List GenerationRow) :
    Filed (Granted assignments roles grants generations)
      (authority sort assignments roles grants generations).ownersByPermission := by
  have hfold : ∀ (l : List RolePermissionGrant) (m : OwnerMaps), (∀ g ∈ l, g ∈ grants) →
      Filed (Granted assignments roles grants generations) m.owners →
      Filed (Granted assignments roles grants generations)
        (l.foldl (fileGrant (roleIds assignments roles) generations) m).owners := by
    intro l
    induction l with
    | nil => exact fun m _ h => h
    | cons g l ih =>
      intro m hl h
      refine ih _ (fun g' hg' => hl g' (List.mem_cons_of_mem _ hg')) (fileGrant_filed ?_ h)
      intro hrole hcur
      exact ⟨g, hl g List.mem_cons_self, rfl, rfl, by simpa using hrole, hcur⟩
  intro p os hp o ho
  obtain ⟨os', hp', rfl⟩ := get?_sortOwners hp
  refine hfold grants ⟨JsMap.empty, JsMap.empty⟩ (fun _ h => h) ?_ p os' hp' o
    ((hsort os').mem_iff.mp ho)
  intro p os h
  simp at h

/-- **Only current owners are effective.** -/
theorem authority_allCurrent {sort : List OwnerRef → List OwnerRef}
    (hsort : ∀ l, (sort l).Perm l) (assignments : List RoleAssignment) (roles : List Role)
    (grants : List RolePermissionGrant) (generations : List GenerationRow) :
    AllCurrent generations (authority sort assignments roles grants generations).ownersByPermission := by
  intro p os hp o ho
  obtain ⟨_, -, -, -, -, hcur⟩ := authority_granted hsort assignments roles grants generations p os hp o ho
  exact hcur

theorem mem_roleIds {assignments : List RoleAssignment} {roles : List Role} {r : String} :
    r ∈ roleIds assignments roles ↔
      ∃ a ∈ assignments, a.state = .active ∧ a.roleId = r ∧ ∃ role ∈ roles, role.id = r := by
  unfold roleIds
  simp only [List.mem_map, List.mem_filter, Bool.and_eq_true, decide_eq_true_eq,
    List.contains_iff_mem]
  constructor
  · rintro ⟨a, ⟨ha, hactive, role, hrole, hid⟩, rfl⟩
    exact ⟨a, ha, hactive, rfl, role, hrole, hid⟩
  · rintro ⟨a, ha, hactive, rfl, role, hrole, hid⟩
    exact ⟨a, ⟨ha, hactive, role, hrole, hid⟩, rfl⟩

theorem ownerKey_platform_ne (o : ExtensionOwner) : ownerKey .platform ≠ ownerKey (.extension o) := by
  intro h
  have hhead := congrArg (fun s => s.toList.head?) h
  have hext : "extension:".toList.head? = some 'e' := by decide
  rw [ownerKey_extension, List.head?_append, hext, Option.some_or] at hhead
  exact absurd hhead (by decide)

theorem sameOwner_iff {left right : OwnerRef} : sameOwner left right = true ↔ left = right := by
  unfold sameOwner
  rw [decide_eq_true_eq]
  constructor
  · intro h
    cases left with
    | platform =>
      cases right with
      | platform => rfl
      | extension p => exact absurd h (ownerKey_platform_ne p)
    | extension o =>
      cases right with
      | platform => exact absurd h.symm (ownerKey_platform_ne o)
      | extension p => rw [ownerKey_injective h]
  · rintro rfl
    rfl

end KNex.Runtime.EffectiveAuthority
