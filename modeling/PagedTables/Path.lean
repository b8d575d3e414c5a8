namespace PagedTables.Path

/-- The last name in a path, unless the path ends by going up. -/
def fileName? (path : String) : Option String :=
  match ((path.splitOn "/").filter (fun s => s ≠ "" ∧ s ≠ ".")).getLast? with
  | some name => if name = ".." then none else some name
  | none => none

/-- The parts of a name before and after its last point. A point at the start divides nothing. -/
def divide (name : String) : String × Option String :=
  let after := (name.toList.reverse.takeWhile (· ≠ '.')).reverse
  let before := name.toList.take (name.length - after.length - 1)
  if after.length = name.length ∨ before.isEmpty then (name, none)
  else (String.ofList before, some (String.ofList after))

def stem? (path : String) : Option String := (fileName? path).map (fun name => (divide name).1)

def extension? (path : String) : Option String :=
  (fileName? path).bind (fun name => (divide name).2)

end PagedTables.Path
