import Stepflow.Failure
import Stepflow.Json.Decoder
import Stepflow.Json.Encoder

/-!
# Settings

Distances on the canvas, the pace of runs and how much history is kept. Every setting has a
default, so a settings file names only what it changes.
-/

namespace Stepflow

open Json

/-- Where inserted and copied nodes go. -/
structure Layout where
  /-- From a node to the one inserted behind it; what is downstream makes way by the same. -/
  insertGap : Double := .finite (.ofNat 250 (by decide))
  /-- A target has no room before it unless it is this far left of its source. -/
  crampedMargin : Double := .finite (.ofNat 50 (by decide))
  /-- From a node to its copy, on both axes. -/
  duplicateOffset : Double := .finite (.ofNat 50 (by decide))
  /-- Steps that a search downstream may take. -/
  searchCap : UInt64 := 1000

/-- The pace of runs, in milliseconds, and the lines of log they keep. -/
structure Pace where
  tickDelay : UInt64 := 600
  completionDelay : UInt64 := 500
  logCapacity : UInt64 := 20

/-- Whether edits can be undone, and the snapshots kept of each workflow. -/
structure Retention where
  enabled : Bool := true
  maxSnapshots : UInt64 := 100

structure Settings where
  layout : Layout := {}
  pace : Pace := {}
  retention : Retention := {}

namespace Layout

def encode (l : Layout) : Plain :=
  .object [
    ("insertGap", Encoder.coordinate l.insertGap),
    ("crampedMargin", Encoder.coordinate l.crampedMargin),
    ("duplicateOffset", Encoder.coordinate l.duplicateOffset),
    ("downstreamSearchCap", Encoder.unsigned l.searchCap)]

def decoder : Decoder Layout := fun room raw => do
  let r ← Record.decoder ["insertGap", "crampedMargin", "duplicateOffset", "downstreamSearchCap"]
    room raw
  let default : Layout := {}
  return {
    insertGap := ← r.withDefault "insertGap" default.insertGap .coordinate
    crampedMargin := ← r.withDefault "crampedMargin" default.crampedMargin .coordinate
    duplicateOffset := ← r.withDefault "duplicateOffset" default.duplicateOffset .coordinate
    searchCap := ← r.withDefault "downstreamSearchCap" default.searchCap .unsigned }

end Layout

namespace Pace

def encode (p : Pace) : Plain :=
  .object [
    ("tickDelayMs", Encoder.unsigned p.tickDelay),
    ("completionDelayMs", Encoder.unsigned p.completionDelay),
    ("logCapacity", Encoder.unsigned p.logCapacity)]

def decoder : Decoder Pace := fun room raw => do
  let r ← Record.decoder ["tickDelayMs", "completionDelayMs", "logCapacity"] room raw
  let default : Pace := {}
  return {
    tickDelay := ← r.withDefault "tickDelayMs" default.tickDelay .unsigned
    completionDelay := ← r.withDefault "completionDelayMs" default.completionDelay .unsigned
    logCapacity := ← r.withDefault "logCapacity" default.logCapacity .unsigned }

end Pace

namespace Retention

def encode (r : Retention) : Plain :=
  .object [("enabled", .bool r.enabled), ("maxSnapshots", Encoder.unsigned r.maxSnapshots)]

def decoder : Decoder Retention := fun room raw => do
  let r ← Record.decoder ["enabled", "maxSnapshots"] room raw
  let default : Retention := {}
  return {
    enabled := ← r.withDefault "enabled" default.enabled .flag
    maxSnapshots := ← r.withDefault "maxSnapshots" default.maxSnapshots .unsigned }

end Retention

namespace Settings

def encode (s : Settings) : Plain :=
  .object [
    ("layout", s.layout.encode),
    ("execution", s.pace.encode),
    ("history", s.retention.encode)]

def decoder : Decoder Settings := fun room raw => do
  let r ← Record.decoder ["layout", "execution", "history"] room raw
  return {
    layout := ← r.withDefault "layout" {} Layout.decoder
    pace := ← r.withDefault "execution" {} Pace.decoder
    retention := ← r.withDefault "history" {} Retention.decoder }

def parse (text : String) : Except Failure Settings :=
  match Decoder.decode? decoder text with
  | some s => .ok s
  | none => .error .undecodable

/-- Settings from the bytes of a file, or from no file. -/
def load (file : Option ByteArray) : Except Failure Settings :=
  match file.bind String.fromUTF8? with
  | some text => parse text
  | none => .error .unreadable

end Settings

end Stepflow
