import OpenDmi.DecodeRule
import OpenDmi.Parts

namespace OpenDmi

open Bytes

variable {source : Source} {fields : List Field} {length : ℕ} {info : Memory}
  {state : DecodeState}

lemma fieldTree_trivial : ∀ field : Field, FieldTree (fun _ => True) field
  | ⟨_, _, _, fields⟩ => .intro trivial fun f _ => fieldTree_trivial f

def SameFlags (state next : DecodeState) : Prop :=
  next.isPartial = state.isPartial ∧ next.isIncomplete = state.isIncomplete

lemma sameFlags_invariant (hp : source.isPart = true) (state : DecodeState) :
    DecodeInvariant source (fun _ => True) (SameFlags state) where
  read _ _ hs _ := hs
  bits _ _ _ _ hs := hs
  control _ _ _ _ _ hs := hs
  incomplete s hs := by rwa [decoderIncomplete, if_pos hp]
  stop s hs := by rwa [decoderStop, if_pos hp]
  number _ _ _ hs := hs
  apply _ _ _ _ _ hs _ _ _ := hs
  binary _ _ _ _ _ hs _ _ _ := hs
  preset _ _ _ _ hs _ _ := hs
  enter _ hs := hs
  leave _ _ _ _ ht := ht
  rewind _ _ _ _ ht _ := ht

lemma decodeList_sameFlags (hp : source.isPart = true) (base : ℕ) (fields : List Field)
    (state : DecodeState) : SameFlags state (decodeList source base fields state).2 :=
  (sameFlags_invariant hp state).decodeList (fun f _ => fieldTree_trivial f) ⟨rfl, rfl⟩

lemma fieldsDecodeInto_sameFlags (source : Source) (fields : List Field) (length : ℕ)
    (info : Memory) (state : DecodeState) :
    SameFlags state (fieldsDecodeInto source fields length info state).2.2 := by
  rw [fieldsDecodeInto]
  split_ifs
  · exact ⟨rfl, rfl⟩
  · exact decodeList_sameFlags rfl 0 fields (partState info state)

end OpenDmi
