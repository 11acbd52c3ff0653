import ControlLoop.Json.Basic
/-!
# Merge patches

A patch that is an object changes the members it names, all the way down: null removes a member, any
other value replaces it or is merged into it. A patch that is no object replaces the whole value.
-/
namespace ControlLoop.Json

/-- The members of an object; any other value has none. -/
def membersOf : Json → List (String × Json)
  | obj members => members
  | _ => []

mutual

/-- `target` with `patch` merged into it. -/
def merge (target : Json) : Json → Json
  | obj changes => obj (mergeMembers target.membersOf changes)
  | patch => patch

/-- Merges the members of a patch one after the other. -/
def mergeMembers (members : List (String × Json)) : List (String × Json) → List (String × Json)
  | [] => members
  | (name, null) :: rest => mergeMembers (eraseMember name members) rest
  | (name, change) :: rest =>
    mergeMembers (insertMember name (merge ((find? name members).getD null) change) members) rest

end

end ControlLoop.Json
