import EncryptedInference.Batch.Unpacking
import EncryptedInference.Exchange.Request
import EncryptedInference.Scores.Accuracy
/-!
# Summaries

What a run makes of its result: the scores in one of the outputs, the best class of every example,
and how the scores agree with the labels. The number of scores per example is not declared; it is
what the output has for each.
-/

namespace EncryptedInference.CommandLine

/-- Why a result has no scores. -/
inductive ResultError
  | noOutputs
  | severalOutputs (names : List String)
  /-- The output that was asked for is not there. -/
  | noSuchOutput (name : String)
  | unevenOutput (name : String) (values batchSize : Nat)
  | unpack (error : UnpackError)
  | evaluation (error : EvaluationError)
  deriving DecidableEq

namespace ResultError

def message : ResultError → String
  | noOutputs => "result has no outputs"
  | severalOutputs names =>
    "result has several outputs (" ++ ", ".intercalate names ++ "); pick one with --output_name"
  | noSuchOutput name => "result has no output named '" ++ name ++ "'"
  | unevenOutput name values batchSize =>
    "output '" ++ name ++ "' carries " ++ toString values ++
      " values, not a multiple of batch size " ++ toString batchSize
  | unpack e => e.message
  | evaluation e => e.message

end ResultError

/-- The output to read: the one that is asked for, or else the only one. -/
def pickOutput (result : InferenceResult) : Option String → Except ResultError String
  | some name => .ok name
  | none => match result.outputs.keys with
    | [name] => .ok name
    | [] => .error .noOutputs
    | names => .error (.severalOutputs names)

/-- The scores in an output, one row per example. -/
def scoresOf (info : PackingMeta) (result : InferenceResult) (name : String) :
    Except ResultError Matrix :=
  match result.outputs.get? name with
  | none => .error (.noSuchOutput name)
  | some slots =>
    let values := slots.valueCount
    if values = 0 ∨ values % info.batchSize ≠ 0 then
      .error (.unevenOutput name values info.batchSize)
    else
      match Unpacker.ofMeta info (values / info.batchSize) with
      | .error e => .error (.unpack e)
      | .ok u => (u.unpackOutput result.outputs name).mapError .unpack

/-- Scores as they are reported in a layout. -/
def arrange (layout : ScoreLayout) (scores : Matrix) : Matrix :=
  match layout with
  | .batchByClass => scores
  | .classByBatch => scores.transpose

/-- The best class of every example. -/
def predictions (scores : Matrix) : List Nat :=
  scores.toRows.map fun row => (Scores.best? row).getD 0

/-- The report on scores in a layout, if there are labels. -/
def reportOf (layout : ScoreLayout) (scores : Matrix) :
    Option (List Nat) → Except ResultError (Option AccuracyReport)
  | none => .ok none
  | some labels => match Scores.evaluate layout (arrange layout scores) labels with
    | .ok report => .ok (some report)
    | .error e => .error (.evaluation e)

/-- What is said about a result. -/
structure Summary where
  requestId : String
  output : String
  layout : ScoreLayout
  /-- One row per example. -/
  scores : Matrix
  report : Option AccuracyReport

namespace Summary

/-- The summary of a result of a batch that was packed as `info` says. -/
def ofResult (info : PackingMeta) (layout : ScoreLayout) (labels : Option (List Nat))
    (outputName : Option String) (result : InferenceResult) : Except ResultError Summary := do
  let output ← pickOutput result outputName
  let scores ← scoresOf info result output
  let report ← reportOf layout scores labels
  return ⟨result.requestId, output, layout, scores, report⟩

def toJson (s : Summary) : Json :=
  .ofFields ([("request_id", .text s.requestId), ("output", .text s.output),
    ("result_layout", s.layout.toJson),
    ("predictions", .array ((predictions s.scores).map .nat)),
    ("scores", .array ((arrange s.layout s.scores).toRows.map fun row =>
      .array (row.map .double)))] ++
    s.report.toList.map fun report => ("accuracy", report.toJson))

/-- A number behind blanks, four characters wide at least. -/
def padded (n : Nat) : String :=
  let digits := toString n
  String.ofList (List.replicate (4 - digits.length) ' ') ++ digits

/-- The lines for a reader: the request, every example with its best class, and the report. -/
def lines (s : Summary) : List String :=
  ["request " ++ s.requestId ++ " (" ++ toString s.scores.rows ++ " examples)"] ++
  (predictions s.scores).mapIdx (fun i c =>
    "  example " ++ padded i ++ ": class " ++ toString c) ++
  s.report.toList.map AccuracyReport.toText

/-- What is printed. -/
def toText (s : Summary) (json : Bool) : String :=
  if json then s.toJson.pretty ++ "\n"
  else String.join (s.lines.map (· ++ "\n"))

end Summary

end EncryptedInference.CommandLine
