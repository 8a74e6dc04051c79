import Finstack.Foundation.Schedule
import Finstack.Foundation.UniqueIndex
import Finstack.Model.Errors

/-! # Members of an organization

The calls of `OrganizationsService` that change memberships, statement by statement, for one
organization and any number of calls at once. A statement that changes many rows looks up which,
and then locks and checks them again one by one, in any order.
-/

namespace Finstack.Organizations

open Foundation

inductive OrgRole where
  | owner
  | admin
  | member
  | viewer
deriving DecidableEq, Repr

/-- Roles that can be granted: ownership is transferred. -/
def ASSIGNABLE_ROLES : List OrgRole := [.admin, .member, .viewer]

/-- A row of `organization_members` of this organization. -/
structure Membership (υ : Type) where
  userId : υ
  role : OrgRole
deriving DecidableEq, Repr

/-! ## Errors -/

def memberAlreadyExistsException : AppException :=
  ⟨"MEMBER_ALREADY_EXISTS", "This user is already a member", HttpStatus.conflict⟩

def memberNotFoundException : AppException :=
  ⟨"MEMBER_NOT_FOUND", "Member not found", HttpStatus.notFound⟩

def ownerChangeNotAllowedException : AppException :=
  ⟨"OWNER_CHANGE_NOT_ALLOWED",
    "The owner cannot be removed or demoted; transfer ownership first",
    HttpStatus.unprocessableEntity⟩

def userNotFoundForEmailException : AppException :=
  ⟨"USER_NOT_FOUND", "No user with this email", HttpStatus.unprocessableEntity⟩

def uq_organization_members_org_user : String := "uq_organization_members_org_user"
def uq_organization_members_owner : String := "uq_organization_members_owner"
def fk_organization_members_organization : String := "fk_organization_members_organization"

/-- The `catch` of `addMember`. -/
def onAddMemberError (error : Err) : Err :=
  if isUniqueViolation error [uq_organization_members_org_user] then
    .app memberAlreadyExistsException
  else
    error

/-! ## Calls -/

/-- A call of the service for this organization. -/
inductive Request (υ : Type) where
  | create (userId : υ)
  /-- With the user that `findByEmail` finds. -/
  | addMember (user : Option υ) (role : OrgRole)
  | changeRole (userId : υ) (role : OrgRole)
  | removeMember (userId : υ)
  | transferOwnership (newOwnerUserId : υ)
deriving DecidableEq, Repr

/-- The statement a call is at, with what it has read. -/
inductive Pc (κ υ : Type) where
  | insertOwner (userId : υ)
  | commitCreate
  | insertMember (userId : υ) (role : OrgRole)
  /-- `requireMember` of `changeRole`. -/
  | findMember (userId : υ) (role : OrgRole)
  | updateRole (id : κ) (target : Membership υ) (role : OrgRole)
  /-- `requireMember` of `removeMember`. -/
  | findRemoved (userId : υ)
  | deleteMember (id : κ)
  | selectMembers (newOwnerUserId : υ)
  /-- `FOR UPDATE`: the rows still to be locked, and those that were read. -/
  | lockMembers (newOwnerUserId : υ) (remaining : List κ) (members : List (κ × Membership υ))
  | demoteOwners (next : κ)
  | demoting (next : κ) (remaining : List κ)
  | promote (next : κ)
  | commit (result : Option (Membership υ))
  | returned (result : Option (Membership υ))
  | threw (error : Err)
  | crashed
deriving DecidableEq, Repr

/-- One organization: whether `create` was called for its id, whether it exists, its members, the
ids they ever had, and every call. -/
structure Organization (κ υ ι : Type) where
  begun : Bool
  created : Bool
  ids : List κ
  members : RowStore κ (Membership υ) ι
  calls : ι → Option (Pc κ υ)

variable {κ υ ι : Type} [DecidableEq κ] [DecidableEq υ] [DecidableEq ι]

def isOwner (membership : Membership υ) : Bool := membership.role = .owner

/-- What the unique indexes say to a row. -/
inductive IndexCheck where
  | passes
  | waits
  | violates (constraint : String)
deriving DecidableEq, Repr

namespace Organization

/-- An id nobody has used. -/
def start : Organization κ υ ι := ⟨false, false, [], .start fun _ => none, fun _ => none⟩

def goto (o : Organization κ υ ι) (i : ι) (pc : Pc κ υ) : Organization κ υ ι :=
  { o with calls := Function.update o.calls i (some pc) }

def commit (o : Organization κ υ ι) (i : ι) : Organization κ υ ι :=
  { o with members := o.members.commit i }

def rollback (o : Organization κ υ ι) (i : ι) : Organization κ υ ι :=
  { o with members := o.members.rollback i }

def write (o : Organization κ υ ι) (i : ι) (id : κ) (row : Option (Membership υ)) :
    Organization κ υ ι :=
  { o with members := o.members.write i id row }

/-- One member for each user, and one owner. -/
def checkIndexes (o : Organization κ υ ι) (i : ι) (id : κ) (membership : Membership υ) :
    IndexCheck :=
  if o.members.Taken (fun other => other.userId = membership.userId) o.ids i id then
    .violates uq_organization_members_org_user
  else if o.members.Waits (fun other => other.userId = membership.userId) o.ids i id then
    .waits
  else if isOwner membership then
    if o.members.Taken isOwner o.ids i id then .violates uq_organization_members_owner
    else if o.members.Waits isOwner o.ids i id then .waits
    else .passes
  else
    .passes

/-- `findOne` by user, as it is committed. -/
def findMembership (o : Organization κ υ ι) (userId : υ) : Option (κ × Membership υ) :=
  o.ids.findSome? fun id =>
    match o.members.rows id with
    | some membership => if membership.userId = userId then some (id, membership) else none
    | none => none

/-- The rows a statement of `i` finds. -/
def select (o : Organization κ υ ι) (i : ι) (where_ : Membership υ → Bool) : List κ :=
  o.ids.filter fun id => (o.members.view i id).any where_

/-- A row with a new id. -/
def insert (o : Organization κ υ ι) (i : ι) (id : κ) (membership : Membership υ) (next : Pc κ υ)
    (onError : Err → Err) : Option (Organization κ υ ι) :=
  match o.checkIndexes i id membership with
  | .passes => some { (o.write i id (some membership)).goto i next with ids := id :: o.ids }
  | .waits => none
  | .violates constraint =>
    some ((o.rollback i).goto i (.threw (onError (.database (.uniqueViolation constraint)))))

/-- The rows of `transferOwnership` have been read. -/
def selected (o : Organization κ υ ι) (i : ι) (newOwnerUserId : υ)
    (members : List (κ × Membership υ)) : Organization κ υ ι :=
  match members.find? fun member => member.2.userId = newOwnerUserId with
  | none => (o.rollback i).goto i (.threw (.app memberNotFoundException))
  | some (next, membership) =>
    if isOwner membership then o.goto i (.commit none) else o.goto i (.demoteOwners next)

/-- The next row of a statement that locks many. -/
def lockNext (o : Organization κ υ ι) (i : ι) (id : κ) : Pc κ υ → Option (Organization κ υ ι)
  | .lockMembers newOwnerUserId remaining members =>
    if id ∈ remaining ∧ o.members.Free i id then
      match o.members.view i id with
      | none => some (o.goto i (.lockMembers newOwnerUserId (remaining.erase id) members))
      | some membership =>
        some { o.goto i (.lockMembers newOwnerUserId (remaining.erase id)
          ((id, membership) :: members)) with members := o.members.lock i id }
    else
      none
  | .demoting next remaining =>
    if id ∈ remaining ∧ o.members.Free i id then
      match o.members.view i id with
      | none => some (o.goto i (.demoting next (remaining.erase id)))
      | some membership =>
        if isOwner membership then
          some ((o.write i id (some { membership with role := .admin })).goto i
            (.demoting next (remaining.erase id)))
        else
          some (o.goto i (.demoting next (remaining.erase id)))
    else
      none
  | _ => none

/-- The next statement of the call `i`, unless it waits for a lock. -/
def advance (o : Organization κ υ ι) (i : ι) : Pc κ υ → Option (Organization κ υ ι)
  | .commitCreate => some { (o.commit i).goto i (.returned none) with created := true }
  | .findMember userId role =>
    match o.findMembership userId with
    | none => some (o.goto i (.threw (.app memberNotFoundException)))
    | some (id, target) =>
      if isOwner target then some (o.goto i (.threw (.app ownerChangeNotAllowedException)))
      else some (o.goto i (.updateRole id target role))
  | .updateRole id target role =>
    if o.members.Free i id then
      match o.members.view i id with
      | none => some (o.goto i (.commit (some { target with role })))
      | some membership =>
        some ((o.write i id (some { membership with role })).goto i
          (.commit (some { target with role })))
    else
      none
  | .findRemoved userId =>
    match o.findMembership userId with
    | none => some (o.goto i (.threw (.app memberNotFoundException)))
    | some (id, target) =>
      if isOwner target then some (o.goto i (.threw (.app ownerChangeNotAllowedException)))
      else some (o.goto i (.deleteMember id))
  | .deleteMember id =>
    if o.members.Free i id then
      match o.members.view i id with
      | none => some (o.goto i (.commit none))
      | some _ => some ((o.write i id none).goto i (.commit none))
    else
      none
  | .selectMembers newOwnerUserId =>
    some (o.goto i (.lockMembers newOwnerUserId (o.select i fun _ => true) []))
  | .lockMembers newOwnerUserId remaining members =>
    if remaining = [] then some (o.selected i newOwnerUserId members) else none
  | .demoteOwners next => some (o.goto i (.demoting next (o.select i isOwner)))
  | .demoting next remaining => if remaining = [] then some (o.goto i (.promote next)) else none
  | .promote next =>
    match o.members.view i next with
    | none => some (o.goto i (.commit none))
    | some membership =>
      match o.checkIndexes i next { membership with role := .owner } with
      | .passes =>
        some ((o.write i next (some { membership with role := .owner })).goto i (.commit none))
      | .waits => none
      | .violates constraint =>
        some ((o.rollback i).goto i (.threw (.database (.uniqueViolation constraint))))
  | .commit result => some ((o.commit i).goto i (.returned result))
  | .insertOwner _ | .insertMember _ _ | .returned _ | .threw _ | .crashed => none

/-- An insert, with the id that the database generates. -/
def insertNext (o : Organization κ υ ι) (i : ι) (id : κ) : Pc κ υ → Option (Organization κ υ ι)
  | .insertOwner userId =>
    if id ∈ o.ids then none else o.insert i id ⟨userId, .owner⟩ .commitCreate fun error => error
  | .insertMember userId role =>
    if id ∈ o.ids then
      none
    else if o.created then
      o.insert i id ⟨userId, role⟩ (.commit (some ⟨userId, role⟩)) onAddMemberError
    else
      some (o.goto i (.threw
        (.database (.foreignKeyViolation fk_organization_members_organization))))
  | _ => none

/-- The first statement of a call that the request's validation lets through. -/
def begin (o : Organization κ υ ι) (i : ι) : Request υ → Option (Organization κ υ ι)
  | .create userId =>
    if o.begun then none else some { o.goto i (.insertOwner userId) with begun := true }
  | .addMember none _ => some (o.goto i (.threw (.app userNotFoundForEmailException)))
  | .addMember (some userId) role =>
    if role ∈ ASSIGNABLE_ROLES then some (o.goto i (.insertMember userId role)) else none
  | .changeRole userId role =>
    if role ∈ ASSIGNABLE_ROLES then some (o.goto i (.findMember userId role)) else none
  | .removeMember userId => some (o.goto i (.findRemoved userId))
  | .transferOwnership newOwnerUserId => some (o.goto i (.selectMembers newOwnerUserId))

/-- What the environment decides. -/
inductive Action (κ υ ι : Type) where
  | call (i : ι) (request : Request υ)
  | insert (i : ι) (id : κ)
  | lock (i : ι) (id : κ)
  | advance (i : ι)
  | crash (i : ι)
deriving DecidableEq, Repr

def step : Action κ υ ι → Organization κ υ ι → Option (Organization κ υ ι)
  | .call i request, o => if o.calls i = none then o.begin i request else none
  | .insert i id, o => (o.calls i).bind (o.insertNext i id)
  | .lock i id, o => (o.calls i).bind (o.lockNext i id)
  | .advance i, o => (o.calls i).bind (o.advance i)
  | .crash i, o => (o.calls i).map fun _ => (o.rollback i).goto i .crashed

/-- Everything that can happen in steps that `Admits` lets happen. -/
def Reaches (Admits : Action κ υ ι → Organization κ υ ι → Prop) :
    Organization κ υ ι → Organization κ υ ι → Prop :=
  Schedule.Reaches step Admits

/-- The membership with this id is the owner's. -/
def Owns (o : Organization κ υ ι) (id : κ) : Prop := (o.members.rows id).any isOwner

end Organization

end Finstack.Organizations
