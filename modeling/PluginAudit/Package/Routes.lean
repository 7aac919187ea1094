import PluginAudit.Package.Fault
import PluginAudit.Text.Blank

namespace PluginAudit

namespace Value

theorem sizeOf_lookup_lt {key : String} {entries : List (Value × Value)} {v : Value}
    (h : lookup key entries = some v) : sizeOf v < sizeOf entries := by
  fun_induction lookup key entries with
  | case1 => simp at h
  | case2 k w rest hk => simp at h; subst h; simp; omega
  | case3 k w rest hk ih => have := ih h; simp; omega
  | case4 e rest _ ih => have := ih h; simp; omega

end Value

namespace Package

/-- A route. The routes inside it count only if it is a group. -/
inductive Route where
  | mk (id : String) (kind : Option String) (routes : List Route)
  deriving Inhabited

/-- A required text that is not empty. -/
def routeText (entries : List (Value × Value)) (key : String) : Except String String :=
  match Value.lookup key entries with
  | none => .error "Field required"
  | some (.text s) => if s == "" then .error "String should have at least 1 character" else .ok s
  | some _ => .error "Input should be a valid string"

/-- The kind of a route. -/
def routeKind (entries : List (Value × Value)) : Except String (Option String) :=
  match Value.lookup "type" entries with
  | none | some .null => .ok none
  | some (.text s) => .ok (some s)
  | some _ => .error "Input should be a valid string"

/-- Reads one route at a path; a fault comes with the path it is at. -/
def readRoute (path : String) (v : Value) : Except (String × String) Route :=
  match v with
  | .map entries => do
    let id ← at_ path (routeText entries "id")
    let _ ← at_ path (routeText entries "desc")
    let kind ← at_ path (routeKind entries)
    match h : Value.lookup "routes" entries with
    | none | some .null => return .mk id kind []
    | some (.list items) =>
      have := Value.sizeOf_lookup_lt h
      return .mk id kind (← readRoutes path 0 items)
    | some _ => .error (path, "Input should be a valid list")
  | _ => .error (path, "Input should be a valid dictionary or instance of RouteNode")
termination_by sizeOf v
decreasing_by all_goals simp_all; omega
where
  at_ {α : Type} (path : String) (r : Except String α) : Except (String × String) α :=
    r.mapError fun e => (path, e)
  readRoutes (path : String) (index : Nat) (vs : List Value) :
      Except (String × String) (List Route) :=
    match vs with
    | [] => .ok []
    | v :: rest => do
      let r ← readRoute s!"{path}/routes[{index}]" v
      return r :: (← readRoutes path (index + 1) rest)
  termination_by sizeOf vs

mutual

/-- The ids of a route and of those in it, each before those in it, with their paths. -/
def Route.visits (path : String) : Route → List (String × String)
  | .mk id kind routes =>
    (id, path) :: if kind == some "group" then visitsAll path 0 routes else []

def Route.visitsAll (path : String) (index : Nat) : List Route → List (String × String)
  | [] => []
  | r :: rest =>
    r.visits s!"{path}/routes[{index}]" ++ visitsAll path (index + 1) rest

end

/-- The ids that are taken, with the file and the place in it. -/
abbrev RouteRegistry := Table (String × String)

namespace RouteRegistry

def has (r : RouteRegistry) (id : String) : Bool :=
  Table.has r (Text.strip id)

/-- Where a route is. -/
def place (file path : String) : String :=
  Text.strip (file ++ " " ++ path)

/-- Takes an id; a blank one is not registered. -/
def register (r : RouteRegistry) (id file path : String) : Except RouteFault RouteRegistry :=
  let id := Text.strip id
  if id == "" then .ok r
  else match r.find? id with
    | some (firstFile, firstPath) =>
      .error (.taken id (place firstFile firstPath) (place file path))
    | none => .ok (r ++ [(id, (file, path))])

end RouteRegistry

/-- Registers the ids of a file, of which those in `seen` are done; up to the first fault. -/
def registerAll (file : String) (r : RouteRegistry) (seen : Table String) :
    List (String × String) → RouteRegistry × Except RouteFault Unit
  | [] => (r, .ok ())
  | (id, path) :: rest =>
    match seen.find? id with
    | some first => (r, .error (.repeated id file first path))
    | none =>
      match r.register id file path with
      | .error e => (r, .error e)
      | .ok r => registerAll file r (seen.put id path) rest

/-- The routes of a route file. -/
def readRouteFile (file : String) (v : Value) : Except RouteFault (List Route) :=
  match v with
  | .map entries =>
    match Value.lookup "routes" entries with
    | some (.list items) =>
      match readRoute.readRoutes "" 0 items with
      | .ok routes => .ok routes
      | .error (path, cause) => .error (.malformed file path cause)
    | _ => .error (.noRoutes file)
  | _ => .error (.noRoutes file)

/-- Checks a route file and registers its ids. What is registered before a fault stays so. -/
def checkRoutes (r : RouteRegistry) (file : String) (v : Value) :
    RouteRegistry × Except RouteFault Unit :=
  match readRouteFile file v with
  | .error e => (r, .error e)
  | .ok routes => registerAll file r [] (Route.visitsAll "" 0 routes)

def checkRouteFile (t : FileTree) (r : RouteRegistry) (path : Path) :
    RouteRegistry × Except RouteFault Unit :=
  let file := path.text
  match t.readJson path with
  | .ok v => checkRoutes r file v
  | .error (.file ..) => (r, .error (.unreadable file))
  | .error e => (r, .error (.invalidJson file e.message))

end Package

end PluginAudit
