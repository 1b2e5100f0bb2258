/-
  Provision.Report

  How a failed start is reported: what was being done, and below it the causes, the
  outermost first.
-/

namespace Provision

/-- A refusal of the system that the device runs on. -/
inductive SystemFault where
  | notFound
  | invalidData
  | addressNotAvailable
  | addressInUse
  | permissionDenied
  /-- A refusal of any other kind, by its name. -/
  | other (kind : String)
deriving DecidableEq, Repr

/-- One cause of a failure. -/
inductive Cause where
  /-- A document is not YAML, or not of the expected shape. -/
  | yaml
  | system (fault : SystemFault)
  | text (message : String)
deriving DecidableEq, Repr

/-- A failure: the outermost cause, and those below it. -/
structure Report where
  cause : Cause
  /-- Why, the outermost cause first. -/
  causes : List Cause
deriving DecidableEq, Repr

namespace Report

/-- Says in what circumstances a failure came about. -/
def during (report : Report) (activity : String) : Report :=
  ⟨.text activity, report.cause :: report.causes⟩

end Report

end Provision
