import Mathlib.Data.Finset.Card
import Finstack.Foundation.RowStore
import Finstack.Foundation.Schedule
import Finstack.Model.Errors

/-! # Staff accounts

`AdminService.setUserRole` and `setUserStatus`, statement by statement, for any number of calls at
once. Each reads the user, and then changes it in a transaction of its own, which takes the
advisory lock of the last admin when the user it has read is an active admin.
-/

namespace Finstack.Admin

open Foundation

inductive UserRole where
  | user
  | support
  | risk
  | finance
  | admin
deriving DecidableEq, Repr

def UserRole.value : UserRole → String
  | .user => "user"
  | .support => "support"
  | .risk => "risk"
  | .finance => "finance"
  | .admin => "admin"

inductive UserStatus where
  | active
  | suspended
deriving DecidableEq, Repr

def UserStatus.value : UserStatus → String
  | .active => "active"
  | .suspended => "suspended"

structure User where
  role : UserRole
  status : UserStatus
deriving DecidableEq, Repr

/-! ## Platform permissions -/

inductive PlatformPermission where
  | readOverview
  | readUsers
  | manageUsers
  | readOrganizations
  | manageOrganizations
  | readWallets
  | manageWallets
  | readAuditLogs
  | readPayments
  | readRefunds
  | readPayouts
  | managePayouts
  | manageRefunds
  | managePayments
  | manageReconciliation
  | manageProviderWebhooks
  | manageFxRates
  | manageFees
  | manageLimits
  | manageRoles
deriving DecidableEq, Repr

def SUPPORT : List PlatformPermission :=
  [.readOverview, .readUsers, .readOrganizations, .readWallets, .readAuditLogs, .readPayments,
    .readRefunds, .readPayouts]

/-- Every permission. -/
def PlatformPermission.values : List PlatformPermission :=
  SUPPORT ++ [.manageUsers, .manageOrganizations, .manageWallets, .managePayouts, .manageRefunds,
    .managePayments, .manageReconciliation, .manageProviderWebhooks, .manageFxRates, .manageFees,
    .manageLimits, .manageRoles]

def PLATFORM_ROLE_PERMISSIONS : UserRole → List PlatformPermission
  | .user => []
  | .support => SUPPORT
  | .risk =>
    SUPPORT ++ [.manageUsers, .manageOrganizations, .manageWallets, .manageLimits, .managePayouts]
  | .finance =>
    SUPPORT ++ [.manageRefunds, .managePayments, .manageReconciliation, .manageProviderWebhooks,
      .manageFxRates, .manageFees, .managePayouts]
  | .admin => PlatformPermission.values

def roleHasPlatformPermission (role : UserRole) (permission : PlatformPermission) : Bool :=
  (PLATFORM_ROLE_PERMISSIONS role).contains permission

/-! ## Errors -/

def userNotFoundException : AppException :=
  ⟨"USER_NOT_FOUND", "User not found", HttpStatus.notFound⟩

def cannotSuspendSelfException : AppException :=
  ⟨"CANNOT_SUSPEND_SELF", "Admins cannot suspend their own account",
    HttpStatus.unprocessableEntity⟩

def invalidStatusChangeException (detail : String) : AppException :=
  ⟨"INVALID_STATUS_CHANGE", detail, HttpStatus.conflict⟩

def cannotChangeOwnRoleException : AppException :=
  ⟨"CANNOT_CHANGE_OWN_ROLE", "Staff cannot change their own role",
    HttpStatus.unprocessableEntity⟩

def lastAdminException : AppException :=
  ⟨"LAST_ADMIN", "The last active admin cannot be removed", HttpStatus.conflict⟩

/-- Without the right to manage roles. -/
def insufficientRoleException : AppException :=
  ⟨"FORBIDDEN", "This requires the \"roles:manage\" platform permission", HttpStatus.forbidden⟩

/-! ## Calls -/

/-- Whoever is signed in, as the guard has found the account. -/
structure AuthenticatedUser (κ : Type) where
  id : κ
  role : UserRole
deriving DecidableEq, Repr

/-- A call of the service with its arguments. -/
inductive Request (κ : Type) where
  | setUserStatus (actor : AuthenticatedUser κ) (userId : κ) (status : UserStatus)
  | setUserRole (adminId userId : κ) (role : UserRole)
deriving DecidableEq, Repr

variable {κ ι : Type}

namespace Request

def userId : Request κ → κ
  | setUserStatus _ userId _ => userId
  | setUserRole _ userId _ => userId

/-- The role and the account that the guards let through. -/
def allowed (users : κ → Option User) : Request κ → Bool
  | setUserStatus actor _ _ =>
    users actor.id = some ⟨actor.role, .active⟩ && roleHasPlatformPermission actor.role .manageUsers
  | setUserRole adminId _ _ =>
    match users adminId with
    | some ⟨role, .active⟩ => roleHasPlatformPermission role .manageRoles
    | _ => false

/-- The checks before the user is read. -/
def checkSelf [DecidableEq κ] : Request κ → Option AppException
  | setUserStatus actor userId status =>
    if status = .suspended ∧ userId = actor.id then some cannotSuspendSelfException else none
  | setUserRole adminId userId _ => if userId = adminId then some cannotChangeOwnRoleException else none

/-- The checks of the user that was read. -/
def checkUser (user : User) : Request κ → Option AppException
  | setUserStatus actor _ status =>
    if user.status = status then
      some (invalidStatusChangeException ("The user is already " ++ status.value))
    else if user.role ≠ .user ∧ ¬ roleHasPlatformPermission actor.role .manageRoles then
      some insufficientRoleException
    else
      none
  | setUserRole _ _ role =>
    if user.role = role then
      some (invalidStatusChangeException ("The user is already " ++ role.value))
    else
      none

/-- Whether the transaction begins with `assertNotLastAdmin`. -/
def removesAnAdmin (user : User) : Request κ → Bool
  | setUserStatus _ _ status =>
    status = .suspended && user.role = .admin && user.status = .active
  | setUserRole _ _ _ => user.role = .admin && user.status = .active

/-- `setStatus` and `setRole` of the users service. -/
def update (user : User) : Request κ → User
  | setUserStatus _ _ status => { user with status }
  | setUserRole _ _ role => { user with role }

end Request

/-- The statement a call is at, with the user it has read. -/
inductive Pc (κ : Type) where
  | getUser (request : Request κ)
  /-- `pg_advisory_xact_lock` -/
  | lockAdmins (request : Request κ) (user : User)
  | countActiveAdmins (request : Request κ) (user : User)
  | update (request : Request κ) (user : User)
  | commit (request : Request κ) (user : User)
  /-- The user once more, for the response. -/
  | respond (request : Request κ)
  | returned (user : User)
  | threw (exception : AppException)
  | crashed
deriving DecidableEq, Repr

/-- The users there are, who holds the advisory lock, and every call. -/
structure Platform (κ ι : Type) where
  ids : Finset κ
  users : RowStore κ User ι
  admins : Option ι
  calls : ι → Option (Pc κ)

namespace Platform

variable [DecidableEq κ] [DecidableEq ι]

/-- These users, and no call yet. -/
def start (ids : Finset κ) (user : κ → User) : Platform κ ι where
  ids := ids
  users := .start fun id => if id ∈ ids then some (user id) else none
  admins := none
  calls := fun _ => none

def goto (p : Platform κ ι) (i : ι) (pc : Pc κ) : Platform κ ι :=
  { p with calls := Function.update p.calls i (some pc) }

def isActiveAdmin (user : Option User) : Bool := user = some ⟨.admin, .active⟩

/-- As one statement of the transaction of `i` counts them. -/
def countActiveAdmins (p : Platform κ ι) (i : ι) : Nat :=
  (p.ids.filter fun id => isActiveAdmin (p.users.view i id)).card

/-- The advisory lock goes with the transaction. -/
def unlock (i : ι) (admins : Option ι) : Option ι := if admins = some i then none else admins

def commit (p : Platform κ ι) (i : ι) : Platform κ ι :=
  { p with users := p.users.commit i, admins := unlock i p.admins }

def rollback (p : Platform κ ι) (i : ι) : Platform κ ι :=
  { p with users := p.users.rollback i, admins := unlock i p.admins }

/-- After the user has been read. -/
def checked (request : Request κ) (user : User) : Pc κ :=
  match request.checkUser user with
  | some exception => .threw exception
  | none => if request.removesAnAdmin user then .lockAdmins request user else .update request user

/-- The next statement of the call `i`, unless it waits for a lock. -/
def advance (p : Platform κ ι) (i : ι) : Pc κ → Option (Platform κ ι)
  | .getUser request =>
    match p.users.rows request.userId with
    | none => some (p.goto i (.threw userNotFoundException))
    | some user => some (p.goto i (checked request user))
  | .lockAdmins request user =>
    if p.admins = none ∨ p.admins = some i then
      some { p.goto i (.countActiveAdmins request user) with admins := some i }
    else
      none
  | .countActiveAdmins request user =>
    if p.countActiveAdmins i ≤ 1 then
      some ((p.rollback i).goto i (.threw lastAdminException))
    else
      some (p.goto i (.update request user))
  | .update request user =>
    if p.users.Free i request.userId then
      some { p.goto i (.commit request user) with
        users := p.users.write i request.userId
          ((p.users.view i request.userId).map request.update) }
    else
      none
  | .commit request _ => some ((p.commit i).goto i (.respond request))
  | .respond request =>
    match p.users.rows request.userId with
    | none => some (p.goto i (.threw userNotFoundException))
    | some user => some (p.goto i (.returned user))
  | .returned _ | .threw _ | .crashed => none

/-- What the environment decides: who calls what, whose statement is next, and who crashes. -/
inductive Action (κ ι : Type) where
  | call (i : ι) (request : Request κ)
  | advance (i : ι)
  | crash (i : ι)
deriving DecidableEq, Repr

def step : Action κ ι → Platform κ ι → Option (Platform κ ι)
  | .call i request, p =>
    if p.calls i = none ∧ request.allowed p.users.rows then
      match request.checkSelf with
      | some exception => some (p.goto i (.threw exception))
      | none => some (p.goto i (.getUser request))
    else
      none
  | .advance i, p => (p.calls i).bind (p.advance i)
  | .crash i, p => (p.calls i).map fun _ => (p.rollback i).goto i .crashed

/-- Everything that can happen in steps that `Admits` lets happen. -/
def Reaches (Admits : Action κ ι → Platform κ ι → Prop) : Platform κ ι → Platform κ ι → Prop :=
  Schedule.Reaches step Admits

/-- An active admin has signed up and was not removed. -/
def HasActiveAdmin (p : Platform κ ι) : Prop := ∃ id, isActiveAdmin (p.users.rows id)

end Platform

end Finstack.Admin
