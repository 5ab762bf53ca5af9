import Dashboard.Dictionary
import Dashboard.Text.Blank

/-!
Who may do what: roles grant permissions, and the headers of a request name the roles of its user.
-/
namespace Dashboard

inductive Permission where
  | viewDashboard | editDashboard | manageDashboards
  deriving DecidableEq, Repr

namespace Permission

def all : List Permission := [.viewDashboard, .editDashboard, .manageDashboards]

def text : Permission → String
  | viewDashboard => "view_dashboard"
  | editDashboard => "edit_dashboard"
  | manageDashboards => "manage_dashboards"

end Permission

namespace Access

inductive Role where
  | consumer | author | admin
  deriving DecidableEq, Repr

namespace Role

def all : List Role := [.consumer, .author, .admin]

def text : Role → String
  | consumer => "consumer"
  | author => "author"
  | admin => "admin"

def permissions : Role → List Permission
  | consumer => [.viewDashboard]
  | author => [.viewDashboard, .editDashboard]
  | admin => [.viewDashboard, .editDashboard, .manageDashboards]

/-- Blanks around a role and the case of its letters do not matter. -/
def ofText? (text : String) : Option Role :=
  let name := (Text.trimmed text).toLower
  all.find? fun role => role.text = name

end Role

/-- A user: roles and permissions are sets, listed in their own order. -/
structure User where
  email : Option String := none
  name : Option String := none
  roles : List Role := []
  groups : List String := []
  permissions : List Permission := []
  deriving DecidableEq, Repr

namespace User

def ofRoles (roles : List Role) : User :=
  { roles := Role.all.filter roles.contains
    permissions := Permission.all.filter fun p => roles.any fun role => role.permissions.contains p }

def has (u : User) (p : Permission) : Bool := u.permissions.contains p

def canView (u : User) : Bool := u.has .viewDashboard

def canEdit (u : User) : Bool := u.has .editDashboard

def canManage (u : User) : Bool := u.has .manageDashboards

end User

def nonEmpty (value : String) : Option String :=
  let text := Text.trimmed value
  if text.isEmpty then none else some text

/-- The items of a list with commas, trimmed, without empty ones. -/
def listItems (value : String) : List String :=
  (Text.pieces ',' value.toList).filterMap fun piece => nonEmpty (String.ofList piece)

/-- The values of the headers with a name, in order; the case of the name does not matter. -/
def valuesOf (name : String) (headers : List (String × String)) : List String :=
  headers.filterMap fun header => if header.1.toLower = name then some header.2 else none

/-- The last header of a name gives the email or the name; lists are joined over their headers.
Unknown roles are left out. -/
def User.ofHeaders (headers : List (String × String)) : User :=
  let roles := (valuesOf "x-user-roles" headers).flatMap fun value =>
    (listItems value).filterMap Role.ofText?
  { User.ofRoles roles with
    email := (valuesOf "x-user-email" headers).getLast?.bind nonEmpty
    name := (valuesOf "x-user-name" headers).getLast?.bind nonEmpty
    groups := (valuesOf "x-user-groups" headers).flatMap listItems }

end Access

end Dashboard
