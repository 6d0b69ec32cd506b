import Tinkerfin.Automation.Models
import Tinkerfin.Lib.Double
import Tinkerfin.Lib.Uuid

/-!
# Deterministic identities

Digests of canonical command input, occurrence keys, and the execution and Runtime identities of one
attempt.
-/

namespace Tinkerfin.Automation

open Messaging (RunIdentity)

/-! ## Canonical text -/

/-- Date and time of an instant, without its offset. -/
def clockText (instant : Nat) : List Char :=
  let date := calendarDate (instant / microsecondsPerDay)
  let time := instant % microsecondsPerDay
  let seconds := time / microsecondsPerSecond
  let micros := time % microsecondsPerSecond
  Double.padded 4 date.year ++ '-' :: Double.padded 2 date.month ++ '-' ::
    Double.padded 2 date.day ++ 'T' :: Double.padded 2 (seconds / 3600) ++ ':' ::
    Double.padded 2 (seconds / 60 % 60) ++ ':' :: Double.padded 2 (seconds % 60) ++
    if micros = 0 then [] else '.' :: Double.padded 6 micros

/-- An instant with its offset from UTC. -/
def isoformat (instant : Nat) : String :=
  String.ofList (clockText instant ++ ['+', '0', '0', ':', '0', '0'])

/-- An instant as the schedule encoding writes it. -/
def instantJson (instant : Nat) : Json := .string (String.ofList (clockText instant ++ ['Z']))

/-- The JSON object of a schedule. -/
def scheduleToJson : Schedule → Json
  | .once runAt => .object [("kind", .string "once"), ("at", instantJson runAt)]
  | .interval everySeconds startAt _ =>
    .object [("kind", .string "interval"), ("every_seconds", .int everySeconds),
      ("start_at", instantJson startAt)]
  | .cron expression timezone =>
    .object [("kind", .string "cron"), ("expression", .string expression),
      ("timezone", .string timezone)]

/-! ## Keys -/

/-- The text a digest is taken of. -/
def canonicalText (values : JsonObject) : String := Json.dumps (.object values)

/-- A stable digest of bounded command input. -/
def canonicalDigest (values : JsonObject) : String :=
  Sha256.hexdigest (Bytes.utf8 (canonicalText values))

/-- The key of one occurrence. -/
def occurrenceKey (parts : List String) : String :=
  Sha256.hexdigest (Bytes.utf8 (Json.dumps (.array (parts.map .string))))

/-- Bytes of the namespace of Automation identities. -/
def automationNamespace : List UInt8 :=
  [0x15, 0x48, 0x41, 0xd6, 0x4a, 0x23, 0x50, 0xda, 0x8f, 0x53, 0x0f, 0x36, 0x09, 0xca, 0xb0, 0x79]

/-- The execution and Runtime identity of one business attempt. -/
def executionIdentity («namespace» ownerId : String) (taskId : Option String)
    (occurrence : String) (attempt : Nat) : String × RunIdentity :=
  let material := Json.dumps (.array [.string «namespace», .string ownerId,
    taskId.elim .null .string, .string occurrence, .int attempt])
  (Uuid.uuid5 automationNamespace ("execution:" ++ material),
    { «namespace»
      threadId := Uuid.uuid5 automationNamespace ("thread:" ++ material)
      runId := Uuid.uuid5 automationNamespace ("run:" ++ material) })

end Tinkerfin.Automation
