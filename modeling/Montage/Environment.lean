/-!
# Environments

The variables a program is started with.
-/

namespace Montage

/-- Environment variables with their values. Of two entries for a name the first counts. -/
abbrev Environment := List (String × String)

namespace Environment

/-- The value of a variable; empty if it is not set. -/
def valueOrEmpty (environment : Environment) (name : String) : String :=
  (environment.lookup name).getD ""

/-- Sets a variable unless it is set already. -/
def offer (environment : Environment) (name value : String) : Environment :=
  if (environment.lookup name).isSome then environment else environment ++ [(name, value)]

end Environment

end Montage
