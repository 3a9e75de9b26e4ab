import ProbeWeave.Desk.Basic
import ProbeWeave.Report.Log

/-!
# Showing timings

The reports in a log are shown as tables, the last one or all of them.
-/

namespace ProbeWeave

open Files Report

/-- Which timings are to be shown. -/
structure TimingsRequest where
  /-- The log; that of the current profile if none is named. -/
  path : Option Path
  all : Bool
  deriving DecidableEq, Repr

/-- The path that a field holds. -/
def pathField? (fields : Record) (key : String) : Option Path :=
  match fields.get? key with
  | some (.text s) => some (.ofText s)
  | _ => none

/-- The request that fields make. -/
def TimingsRequest.ofFields (fields : Record) : TimingsRequest :=
  ⟨pathField? fields "report", fields.get? "all" == some (.bool true)⟩

/-- The row of a measured line. -/
def Report.Entry.row (e : Entry) : List String :=
  [String.join (List.replicate (e.depth - 1) "| ") ++ e.label, e.kind.text,
    toString e.milliseconds, e.elapsed]

/-- The table of a report. -/
def reportTable (entries : List Entry) : Text.Table :=
  let title := (entries.head?.map Entry.entry).getD ""
  ⟨if title.isEmpty then "REPORT" else title, ["Name", "Kind", "ms", "Elapsed"], entries.map Entry.row⟩

namespace Task

/-- The log that a request is for. -/
def logPath (request : TimingsRequest) : Task Path := do
  let named ←
    match request.path with
    | some path => pure (some path)
    | none => do pure (pathField? (← load none) "report_file")
  let some path := named | throw .noReport
  let w ← world
  let some path := path.expandHome? w.home | throw .noHome
  if w.pathExists path then return path else throw (.reportMissing path)

/-- Shows timings. -/
def showTimings (request : TimingsRequest) : Task Unit := do
  let path ← logPath request
  let text ← check .reading ((← world).readText path)
  let reports := groupReports (← check .measurement (readLog text))
  if reports.isEmpty then say ("No timing lines found in " ++ path.text ++ ".")
  else
    let chosen := if request.all then reports else reports.getLast?.toList
    chosen.forM fun entries => sayTable (reportTable entries)

end Task

end ProbeWeave
