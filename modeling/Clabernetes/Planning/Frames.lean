import Clabernetes.Base.Utf8

/-!
# Framed lines of a worker

`internal/deviceplan/worker.go`. A worker and the hooks it imports write to one stream. The records
are the lines that start with one of four markers, each followed by its payload in base64;
everything else is noise, and the last record counts.
-/

namespace Clabernetes.Planning

open Base

def bytesOf (s : String) : List UInt8 := utf8 s.toList

def workerOutputPrefix : List UInt8 := bytesOf "C9S_DEVICE_PLAN_V1:"

def workerErrorPrefix : List UInt8 := bytesOf "C9S_DEVICE_ERROR_V1:"

def sessionFramePrefix : List UInt8 := bytesOf "C9S_DEVICE_SESSION_V1:"

def sessionCachePrefix : List UInt8 := bytesOf "C9S_DEVICE_SESSION_CACHE_V1:"

def framePrefixes : List (List UInt8) :=
  [workerOutputPrefix, sessionFramePrefix, sessionCachePrefix, workerErrorPrefix]

def splitLines (raw : List UInt8) : List (List UInt8) := raw.splitOn 10

def cutPrefix (line marker : List UInt8) : Option (List UInt8) :=
  if marker <+: line then some (line.drop marker.length) else none

/-- `worker.go:182-205`; `decodeString` is the strict decoder of `encoding/base64`. -/
def decodeWorkerFramePayload (decodeString : List UInt8 → Option (List UInt8))
    (raw : List UInt8) : Option (List UInt8) :=
  let encoded := (splitLines raw).foldl (fun encoded line =>
    framePrefixes.foldl (fun encoded marker => (cutPrefix line marker).getD encoded) encoded) []
  if encoded = [] then none
  else (decodeString encoded).filter (· ≠ [])

end Clabernetes.Planning
