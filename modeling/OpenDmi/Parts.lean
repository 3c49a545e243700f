import OpenDmi.FieldEncode

namespace OpenDmi

open Bytes

def partSource (source : Source) (stop : ℕ) : Source :=
  { source with body := source.body.take stop, isPart := true }

def partState (info : Memory) (state : DecodeState) : DecodeState :=
  ⟨state.position, 0, 0, 0, false, false, 0, state.level, state.isPartial, state.isIncomplete, info⟩

def fieldsDecodeInto (source : Source) (fields : List Field) (length : ℕ) (info : Memory)
    (state : DecodeState) : Bool × Memory × DecodeState :=
  if readerRemaining source state < length then (false, info, state)
  else
    let stop := state.position + length
    let (ok, part) := decodeList (partSource source stop) 0 fields (partState info state)
    (ok, part.memory, { state with
      position := stop
      level := part.level
      isPartial := part.isPartial
      isIncomplete := part.isIncomplete })

end OpenDmi
