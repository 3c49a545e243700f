import Mathlib.Data.List.TakeWhile
import OpenDmi.CallScript
import OpenDmi.Replacement

universe u

namespace OpenDmi

open Bytes

inductive OptionArgument
  | none
  | string (required : Bool)
  deriving DecidableEq

/-- An option, whose handler and whose variable are told by their numbers. -/
structure CommandOption where
  shortNames : Option (List Byte)
  longNames : Option (List (List Byte))
  value : Option ℕ
  isReverse : Bool
  handler : Option ℕ
  argument : OptionArgument
  deriving DecidableEq

abbrev OptionSet := List CommandOption

inductive OptionCall
  | handler (handler : ℕ) (value : Option (List Byte))
  | setFlag (target : ℕ) (flag : Bool)
  | setString (target : ℕ) (value : Option (List Byte))
  | message (format : List Byte) (args : List (List Byte))
  deriving DecidableEq

section Find

def optionFindShort (set : OptionSet) (name : Byte) : Option CommandOption :=
  set.find? fun option => option.shortNames.any (name ∈ ·)

def optionFindShortEx (options : List OptionSet) (name : Byte) : Option CommandOption :=
  options.findSome? fun set => optionFindShort set name

def optionFindLong (set : OptionSet) (name : List Byte) : Option CommandOption :=
  set.find? fun option => option.longNames.any (name ∈ ·)

def optionFindLongEx (options : List OptionSet) (name : List Byte) : Option CommandOption :=
  options.findSome? fun set => optionFindLong set name

end Find

section Parse

variable {m : Type → Type u} [Monad m] (call : OptionCall → m Bool) (options : List OptionSet)

def optionFail (format : String) (args : List (List Byte)) : m Bool := do
  let _ ← call (.message (stringBytes format) args)
  pure false

def optionToggle (option : CommandOption) : m Bool :=
  match option.handler with
  | some handler => call (.handler handler none)
  | none => match option.value with
    | none => optionFail call "Option is not implemented" []
    | some target => call (.setFlag target !option.isReverse)

def optionSet (option : CommandOption) (value : Option (List Byte)) : m Bool :=
  match option.handler with
  | some handler => call (.handler handler value)
  | none => match option.value with
    | none => optionFail call "Option is not implemented" []
    | some target => call (.setString target value)

def optionParseLong (arg : List Byte) (left : List (List Byte)) : m (Bool × List (List Byte)) :=
  let name := arg.takeWhile (· != 0x3D)
  let value := if 0x3D ∈ arg then some (arg.drop (name.length + 1)) else none
  match optionFindLongEx options name with
  | none => (·, left) <$> optionFail call "Unknown option: --%s" [name]
  | some option => match option.argument with
    | .none =>
      if value.isSome then (·, left) <$> optionFail call "Option --%s doesn't have arguments" [name]
      else (·, left) <$> optionToggle call option
    | .string required =>
      if required ∧ value = none then match left with
        | [] => (·, []) <$> optionFail call "Option --%s requires an argument" [name]
        | value :: left => (·, left) <$> optionSet call option (some value)
      else (·, left) <$> optionSet call option value

def optionParseShort (left : List (List Byte)) : List Byte → m (Bool × List (List Byte))
  | [] => pure (true, left)
  | flag :: arg => match optionFindShortEx options flag with
    | none => (·, left) <$> optionFail call "Unknown option: -%c" [[flag]]
    | some option => match option.argument with
      | .none => do
        if ← optionToggle call option then optionParseShort left arg else pure (false, left)
      | .string false => do
        if ← optionSet call option none then optionParseShort left arg else pure (false, left)
      | .string true => match arg, left with
        | [], [] => (·, []) <$> optionFail call "Option -%c requires an argument" [[flag]]
        | [], value :: left => (·, left) <$> optionSet call option (some value)
        | arg, left => (·, left) <$> optionSet call option (some arg)

/-- A dash alone is no option. -/
def optionIsOption : List Byte → Bool
  | 0x2D :: _ :: _ => true
  | _ => false

def optionParseNext (arg : List Byte) (left : List (List Byte)) : m (Bool × List (List Byte)) :=
  if arg.take 2 = stringBytes "--" then optionParseLong call options (arg.drop 2) left
  else optionParseShort call options left (arg.drop 1)

/-- There is one step for each of the arguments at most. -/
def optionParseLoop : ℕ → List (List Byte) → m (Option (List (List Byte)))
  | 0, args => pure (some args)
  | _ + 1, [] => pure (some [])
  | fuel + 1, arg :: left =>
    if optionIsOption arg = false then pure (some (arg :: left))
    else if arg = stringBytes "--" then pure (some left)
    else do
      let (success, left) ← optionParseNext call options arg left
      if success then optionParseLoop fuel left else pure none

def optionParse (args : List (List Byte)) : m (Option ℕ) :=
  Option.map (fun left => args.length - left.length) <$>
    optionParseLoop call options args.length args

end Parse

section Grammar

def optionToggleCall (option : CommandOption) : Option OptionCall :=
  match option.handler with
  | some handler => some (.handler handler none)
  | none => option.value.map fun target => .setFlag target !option.isReverse

def optionSetCall (option : CommandOption) (value : Option (List Byte)) : Option OptionCall :=
  match option.handler with
  | some handler => some (.handler handler value)
  | none => option.value.map fun target => .setString target value

def optionMessage (format : String) (args : List (List Byte)) : OptionCall :=
  .message (stringBytes format) args

variable (options : List OptionSet)

inductive BareUse (option : CommandOption) : OptionCall → Prop
  | toggle {c : OptionCall} (hnone : option.argument = .none)
    (hcall : optionToggleCall option = some c) : BareUse option c
  | omitted {c : OptionCall} (hoptional : option.argument = .string false)
    (hcall : optionSetCall option none = some c) : BareUse option c

inductive ShortUses : List Byte → List OptionCall → Prop
  | nil : ShortUses [] []
  | cons {flag : Byte} {flags : List Byte} {option : CommandOption} {c : OptionCall}
    {calls : List OptionCall} (hfind : optionFindShortEx options flag = some option)
    (huse : BareUse option c) (hrest : ShortUses flags calls) :
    ShortUses (flag :: flags) (c :: calls)

def longArg (name : List Byte) : List Byte := stringBytes "--" ++ name

def shortArg (flags : List Byte) : List Byte := stringBytes "-" ++ flags

inductive OptionWords : List (List Byte) → List OptionCall → Prop
  | long {name : List Byte} {option : CommandOption} {c : OptionCall} (hname : 0x3D ∉ name)
    (hne : name ≠ []) (hfind : optionFindLongEx options name = some option)
    (huse : BareUse option c) : OptionWords [longArg name] [c]
  | longJoined {name value : List Byte} {option : CommandOption} {required : Bool} {c : OptionCall}
    (hname : 0x3D ∉ name) (hfind : optionFindLongEx options name = some option)
    (hargument : option.argument = .string required)
    (hcall : optionSetCall option (some value) = some c) :
    OptionWords [longArg (name ++ 0x3D :: value)] [c]
  | longNext {name value : List Byte} {option : CommandOption} {c : OptionCall}
    (hname : 0x3D ∉ name) (hne : name ≠ []) (hfind : optionFindLongEx options name = some option)
    (hargument : option.argument = .string true)
    (hcall : optionSetCall option (some value) = some c) : OptionWords [longArg name, value] [c]
  | short {flags : List Byte} {calls : List OptionCall} (hne : flags ≠ [])
    (hdash : flags.head? ≠ some 0x2D) (huses : ShortUses options flags calls) :
    OptionWords [shortArg flags] calls
  | shortJoined {flags value : List Byte} {flag : Byte} {option : CommandOption} {c : OptionCall}
    {calls : List OptionCall} (hdash : (flags ++ [flag]).head? ≠ some 0x2D)
    (huses : ShortUses options flags calls) (hfind : optionFindShortEx options flag = some option)
    (hargument : option.argument = .string true) (hvalue : value ≠ [])
    (hcall : optionSetCall option (some value) = some c) :
    OptionWords [shortArg (flags ++ flag :: value)] (calls ++ [c])
  | shortNext {flags value : List Byte} {flag : Byte} {option : CommandOption} {c : OptionCall}
    {calls : List OptionCall} (hdash : (flags ++ [flag]).head? ≠ some 0x2D)
    (huses : ShortUses options flags calls) (hfind : optionFindShortEx options flag = some option)
    (hargument : option.argument = .string true)
    (hcall : optionSetCall option (some value) = some c) :
    OptionWords [shortArg (flags ++ [flag]), value] (calls ++ [c])

inductive CommandLine : List (List Byte) → List OptionCall → ℕ → Prop
  | done : CommandLine [] [] 0
  | stop {arg : List Byte} {rest : List (List Byte)} (harg : optionIsOption arg = false) :
    CommandLine (arg :: rest) [] 0
  | dashes {rest : List (List Byte)} : CommandLine (stringBytes "--" :: rest) [] 1
  | uses {words rest : List (List Byte)} {calls more : List OptionCall} {n : ℕ}
    (hwords : OptionWords options words calls) (hrest : CommandLine rest more n) :
    CommandLine (words ++ rest) (calls ++ more) (words.length + n)

inductive ShortFault (flag : Byte) : List Byte → List (List Byte) → OptionCall → Prop
  | unknown {tail : List Byte} {left : List (List Byte)}
    (hfind : optionFindShortEx options flag = none) :
    ShortFault flag tail left (optionMessage "Unknown option: -%c" [[flag]])
  | missing {option : CommandOption} (hfind : optionFindShortEx options flag = some option)
    (hargument : option.argument = .string true) :
    ShortFault flag [] [] (optionMessage "Option -%c requires an argument" [[flag]])
  | void {tail : List Byte} {left : List (List Byte)} {option : CommandOption}
    (hfind : optionFindShortEx options flag = some option) (hhandler : option.handler = none)
    (hvalue : option.value = none)
    (hgiven : option.argument = .string true → tail ≠ [] ∨ left ≠ []) :
    ShortFault flag tail left (optionMessage "Option is not implemented" [])

def optionName (text : List Byte) : List Byte := text.takeWhile (· != 0x3D)

inductive OptionFault : List (List Byte) → List OptionCall → Prop
  | longUnknown {text : List Byte} {left : List (List Byte)} (hne : text ≠ [])
    (hfind : optionFindLongEx options (optionName text) = none) :
    OptionFault (longArg text :: left)
      [optionMessage "Unknown option: --%s" [optionName text]]
  | longFlag {text : List Byte} {left : List (List Byte)} {option : CommandOption}
    (hvalue : 0x3D ∈ text) (hfind : optionFindLongEx options (optionName text) = some option)
    (hargument : option.argument = .none) :
    OptionFault (longArg text :: left)
      [optionMessage "Option --%s doesn't have arguments" [optionName text]]
  | longMissing {name : List Byte} {option : CommandOption} (hname : 0x3D ∉ name) (hne : name ≠ [])
    (hfind : optionFindLongEx options name = some option)
    (hargument : option.argument = .string true) :
    OptionFault [longArg name] [optionMessage "Option --%s requires an argument" [name]]
  | longVoid {text : List Byte} {left : List (List Byte)} {option : CommandOption} (hne : text ≠ [])
    (hfind : optionFindLongEx options (optionName text) = some option)
    (hhandler : option.handler = none) (hvalue : option.value = none)
    (hflag : option.argument = .none → 0x3D ∉ text)
    (hgiven : option.argument = .string true → 0x3D ∈ text ∨ left ≠ []) :
    OptionFault (longArg text :: left) [optionMessage "Option is not implemented" []]
  | short {flags tail : List Byte} {flag : Byte} {left : List (List Byte)}
    {calls : List OptionCall} {c : OptionCall} (hdash : (flags ++ [flag]).head? ≠ some 0x2D)
    (huses : ShortUses options flags calls) (hfault : ShortFault options flag tail left c) :
    OptionFault (shortArg (flags ++ flag :: tail) :: left) (calls ++ [c])

inductive BadLine : List (List Byte) → List OptionCall → Prop
  | fault {args : List (List Byte)} {calls : List OptionCall} (h : OptionFault options args calls) :
    BadLine args calls
  | uses {words rest : List (List Byte)} {calls more : List OptionCall}
    (hwords : OptionWords options words calls) (hrest : BadLine rest more) :
    BadLine (words ++ rest) (calls ++ more)

end Grammar

section Parsed

variable {m : Type → Type u} [Monad m] [LawfulMonad m] {call : OptionCall → m Bool}
  {options : List OptionSet} {option : CommandOption} {c : OptionCall}
  {calls more : List OptionCall} {left words rest args : List (List Byte)} {flags tail : List Byte}
  {n fuel : ℕ}

lemma andM_bind {α : Type} (p q : m Bool) (f : Bool → m α) :
    (p <&&> q) >>= f = p >>= fun b => if b then q >>= f else f false := by
  rw [andM, bind_assoc]
  refine bind_congr fun b => ?_
  cases b
  · exact pure_bind false f
  · rfl

omit [LawfulMonad m]

lemma optionToggle_call (h : optionToggleCall option = some c) :
    optionToggle call option = call c := by
  rw [optionToggleCall] at h
  rw [optionToggle]
  cases hhandler : option.handler with
  | some handler =>
    rw [hhandler] at h
    obtain rfl := Option.some.inj h
    rfl
  | none =>
    rw [hhandler] at h
    obtain ⟨target, htarget, rfl⟩ := Option.map_eq_some_iff.mp h
    simp only [htarget]

lemma optionSet_call {value : Option (List Byte)} (h : optionSetCall option value = some c) :
    optionSet call option value = call c := by
  rw [optionSetCall] at h
  rw [optionSet]
  cases hhandler : option.handler with
  | some handler =>
    rw [hhandler] at h
    obtain rfl := Option.some.inj h
    rfl
  | none =>
    rw [hhandler] at h
    obtain ⟨target, htarget, rfl⟩ := Option.map_eq_some_iff.mp h
    simp only [htarget]

variable [LawfulMonad m]

lemma parseShort_uses (h : ShortUses options flags calls) (tail : List Byte) :
    optionParseShort call options left (flags ++ tail) = calls.allM call >>= fun ok =>
      if ok then optionParseShort call options left tail else pure (false, left) := by
  induction h with
  | nil =>
    have hnil : ([] : List OptionCall).allM call = pure true := rfl
    rw [hnil, pure_bind]
    rfl
  | cons hfind huse hrest ih =>
    rw [Script.allM_cons, andM_bind, List.cons_append, optionParseShort]
    cases huse with
    | toggle hnone hcall =>
      simp only [hfind, hnone, optionToggle_call hcall, ih]
      refine bind_congr fun b => ?_
      cases b <;> rfl
    | omitted hoptional hcall =>
      simp only [hfind, hoptional, optionSet_call hcall, ih]
      refine bind_congr fun b => ?_
      cases b <;> rfl

omit [LawfulMonad m]

lemma takeWhile_name {name : List Byte} (hname : 0x3D ∉ name) (value : List Byte) :
    optionName (name ++ 0x3D :: value) = name := by
  induction name with
  | nil => rfl
  | cons c name ih =>
    rw [List.mem_cons, not_or] at hname
    have hc : (c != 0x3D) = true := bne_iff_ne.mpr (Ne.symm hname.1)
    rw [optionName, List.cons_append, List.takeWhile_cons, hc]
    exact congrArg (c :: ·) (ih hname.2)

lemma takeWhile_bare {name : List Byte} (hname : 0x3D ∉ name) : optionName name = name := by
  induction name with
  | nil => rfl
  | cons c name ih =>
    rw [List.mem_cons, not_or] at hname
    have hc : (c != 0x3D) = true := bne_iff_ne.mpr (Ne.symm hname.1)
    rw [optionName, List.takeWhile_cons, hc]
    exact congrArg (c :: ·) (ih hname.2)

lemma not_mem_name (text : List Byte) : 0x3D ∉ optionName text := by
  intro h
  have hp := List.mem_takeWhile_imp h
  exact absurd hp (by decide)

lemma parseLong_bare {name : List Byte} (hname : 0x3D ∉ name)
    (hfind : optionFindLongEx options name = some option) (huse : BareUse option c) :
    optionParseLong call options name left = (·, left) <$> call c := by
  have htake : name.takeWhile (· != 0x3D) = name := takeWhile_bare hname
  rw [optionParseLong, htake]
  simp only [hfind, if_neg hname]
  cases huse with
  | toggle hnone hcall => simp [hnone, optionToggle_call hcall]
  | omitted hoptional hcall => simp [hoptional, optionSet_call hcall]

lemma parseLong_joined {name value : List Byte} {required : Bool} (hname : 0x3D ∉ name)
    (hfind : optionFindLongEx options name = some option)
    (hargument : option.argument = .string required)
    (hcall : optionSetCall option (some value) = some c) :
    optionParseLong call options (name ++ 0x3D :: value) left = (·, left) <$> call c := by
  have htake : (name ++ 0x3D :: value).takeWhile (· != 0x3D) = name := takeWhile_name hname value
  have hdrop : (name ++ 0x3D :: value).drop (name.length + 1) = value := by
    rw [List.drop_append, List.drop_eq_nil_of_le (by omega), Nat.add_sub_cancel_left]
    rfl
  rw [optionParseLong, htake, hdrop]
  simp [hfind, hargument, optionSet_call hcall]

lemma parseLong_next {name value : List Byte} (hname : 0x3D ∉ name)
    (hfind : optionFindLongEx options name = some option)
    (hargument : option.argument = .string true)
    (hcall : optionSetCall option (some value) = some c) :
    optionParseLong call options name (value :: left) = (·, left) <$> call c := by
  have htake : name.takeWhile (· != 0x3D) = name := takeWhile_bare hname
  rw [optionParseLong, htake]
  simp [hfind, hname, hargument, optionSet_call hcall]

lemma parseShort_joined {flag : Byte} {value : List Byte}
    (hfind : optionFindShortEx options flag = some option)
    (hargument : option.argument = .string true) (hvalue : value ≠ [])
    (hcall : optionSetCall option (some value) = some c) :
    optionParseShort call options left (flag :: value) = (·, left) <$> call c := by
  obtain ⟨b, value, rfl⟩ := List.exists_cons_of_ne_nil hvalue
  rw [optionParseShort]
  simp only [hfind, hargument, optionSet_call hcall]

lemma parseShort_next {flag : Byte} {value : List Byte}
    (hfind : optionFindShortEx options flag = some option)
    (hargument : option.argument = .string true)
    (hcall : optionSetCall option (some value) = some c) :
    optionParseShort call options (value :: left) [flag] = (·, left) <$> call c := by
  rw [optionParseShort]
  simp only [hfind, hargument, optionSet_call hcall]

lemma parseNext_long (text : List Byte) :
    optionParseNext call options (longArg text) left = optionParseLong call options text left :=
  if_pos rfl

lemma parseNext_short {flags : List Byte} (h : flags.head? ≠ some 0x2D) :
    optionParseNext call options (shortArg flags) left =
      optionParseShort call options left flags := by
  refine if_neg fun he => ?_
  cases flags with
  | nil => exact absurd he (by decide)
  | cons flag flags =>
    obtain rfl : flag = 0x2D := (List.cons.inj (List.cons.inj he).2).1
    exact h rfl

variable [LawfulMonad m]

lemma loop_next {arg : List Byte} {p q : m Bool} (harg : optionIsOption arg = true)
    (hdashes : arg ≠ stringBytes "--")
    (hnext : optionParseNext call options arg args = p >>= fun ok =>
      if ok then (·, left) <$> q else pure (false, args)) :
    optionParseLoop call options (fuel + 1) (arg :: args) = (p <&&> q) >>= fun ok =>
      if ok then optionParseLoop call options fuel left else pure none := by
  rw [optionParseLoop, if_neg (by rw [harg]; decide), if_neg hdashes, hnext, andM_bind, bind_assoc]
  refine bind_congr fun b => ?_
  cases b with
  | false => simp
  | true => simp

lemma longArg_isOption (text : List Byte) : optionIsOption (longArg text) = true := rfl

lemma longArg_ne {text : List Byte} (h : text ≠ []) : longArg text ≠ stringBytes "--" :=
  fun he => h (List.append_cancel_left (he.trans (List.append_nil _).symm))

lemma shortArg_isOption {flags : List Byte} (h : flags ≠ []) :
    optionIsOption (shortArg flags) = true := by
  obtain ⟨flag, flags, rfl⟩ := List.exists_cons_of_ne_nil h
  rfl

lemma shortArg_ne {flags : List Byte} (h : flags.head? ≠ some 0x2D) :
    shortArg flags ≠ stringBytes "--" := by
  intro he
  obtain rfl : flags = [0x2D] := List.append_cancel_left he
  exact h rfl

lemma head_append {flags : List Byte} {flag : Byte} (h : (flags ++ [flag]).head? ≠ some 0x2D)
    (tail : List Byte) : (flags ++ flag :: tail).head? ≠ some 0x2D := by
  cases flags with
  | nil => exact h
  | cons c flags => exact h

lemma loop_words (h : OptionWords options words calls) (rest : List (List Byte)) :
    optionParseLoop call options (fuel + 1) (words ++ rest) = calls.allM call >>= fun ok =>
      if ok then optionParseLoop call options fuel rest else pure none := by
  have hsingle : ∀ c : OptionCall, [c].allM call = (pure true <&&> call c) := fun c => by
    rw [Script.allM_cons, Script.true_andM]
    exact Script.andM_true _
  have hlast : ∀ (calls : List OptionCall) (c : OptionCall),
      (calls ++ [c]).allM call = (calls.allM call <&&> call c) := fun calls c => by
    rw [Script.allM_append, hsingle, Script.true_andM]
  cases h with
  | long hname hne hfind huse =>
    rw [hsingle, List.singleton_append]
    refine loop_next (longArg_isOption _) (longArg_ne hne) ?_
    rw [parseNext_long, parseLong_bare hname hfind huse, pure_bind, if_pos rfl]
  | longJoined hname hfind hargument hcall =>
    rw [hsingle, List.singleton_append]
    refine loop_next (longArg_isOption _) (longArg_ne (by simp)) ?_
    rw [parseNext_long, parseLong_joined hname hfind hargument hcall, pure_bind, if_pos rfl]
  | longNext hname hne hfind hargument hcall =>
    rw [hsingle, List.cons_append, List.singleton_append]
    refine loop_next (longArg_isOption _) (longArg_ne hne) ?_
    rw [parseNext_long, parseLong_next hname hfind hargument hcall, pure_bind, if_pos rfl]
  | short hne hdash huses =>
    rw [← Script.andM_true (calls.allM call), List.singleton_append]
    refine loop_next (shortArg_isOption hne) (shortArg_ne hdash) ?_
    have hparse : optionParseShort call options rest _ = calls.allM call >>= fun ok =>
        if ok then optionParseShort call options rest [] else pure (false, rest) :=
      parseShort_uses huses []
    rw [List.append_nil] at hparse
    rw [parseNext_short hdash, hparse]
    simp only [optionParseShort, map_pure]
  | @shortJoined flags value flag option c calls hdash huses hfind hargument hvalue hcall =>
    have hhead := head_append hdash value
    rw [hlast, List.singleton_append]
    refine loop_next (shortArg_isOption (by simp)) (shortArg_ne hhead) ?_
    rw [parseNext_short hhead, parseShort_uses huses]
    simp only [parseShort_joined hfind hargument hvalue hcall]
  | shortNext hdash huses hfind hargument hcall =>
    rw [hlast, List.cons_append, List.singleton_append]
    refine loop_next (shortArg_isOption (by simp)) (shortArg_ne hdash) ?_
    rw [parseNext_short hdash, parseShort_uses huses]
    simp only [parseShort_next hfind hargument hcall]

lemma loop_fail {arg : List Byte} {p : m Bool} (harg : optionIsOption arg = true)
    (hdashes : arg ≠ stringBytes "--")
    (hnext : optionParseNext call options arg args = p >>= fun _ => pure (false, left)) :
    optionParseLoop call options (fuel + 1) (arg :: args) = p >>= fun _ => pure none := by
  rw [optionParseLoop, if_neg (by rw [harg]; decide), if_neg hdashes, hnext, bind_assoc]
  refine bind_congr fun b => ?_
  simp

lemma optionFail_map (format : String) (args left : List (List Byte)) :
    (·, left) <$> optionFail call format args =
      call (optionMessage format args) >>= fun _ => pure (false, left) := by
  rw [optionFail, optionMessage, map_eq_bind_pure_comp, bind_assoc]
  refine bind_congr fun b => ?_
  rw [pure_bind]
  rfl

omit [LawfulMonad m] in
lemma optionToggle_void (hhandler : option.handler = none) (hvalue : option.value = none) :
    optionToggle call option = optionFail call "Option is not implemented" [] := by
  simp only [optionToggle, hhandler, hvalue]

omit [LawfulMonad m] in
lemma optionSet_void (hhandler : option.handler = none) (hvalue : option.value = none)
    (value : Option (List Byte)) :
    optionSet call option value = optionFail call "Option is not implemented" [] := by
  simp only [optionSet, hhandler, hvalue]

lemma parseShort_fault {flag : Byte} (h : ShortFault options flag tail left c) :
    ∃ rest, optionParseShort call options left (flag :: tail) =
      call c >>= fun _ => pure (false, rest) := by
  rw [optionParseShort]
  cases h with
  | unknown hfind =>
    simp only [hfind]
    exact ⟨left, optionFail_map _ _ _⟩
  | missing hfind hargument =>
    simp only [hfind, hargument]
    exact ⟨[], optionFail_map _ _ _⟩
  | @void _ _ option hfind hhandler hvalue hgiven =>
    have hset : ∀ value, optionSet call option value =
        optionFail call "Option is not implemented" [] := optionSet_void hhandler hvalue
    have htoggle : optionToggle call option = optionFail call "Option is not implemented" [] :=
      optionToggle_void hhandler hvalue
    have hfail : ∀ (k : Bool → m (Bool × List (List Byte))) (hk : k false = pure (false, left)),
        (optionFail call "Option is not implemented" [] >>= k) =
          call (optionMessage "Option is not implemented" []) >>= fun _ => pure (false, left) := by
      intro k hk
      rw [optionFail, bind_assoc]
      refine bind_congr fun _ => ?_
      rw [pure_bind, hk]
    simp only [hfind]
    rcases hargument : option.argument with _ | _ | _
    · simp only [htoggle]
      exact ⟨left, hfail _ rfl⟩
    · simp only [hset]
      exact ⟨left, hfail _ rfl⟩
    · obtain hgiven | hgiven := hgiven hargument
      · obtain ⟨b, tail, rfl⟩ := List.exists_cons_of_ne_nil hgiven
        simp only [hset]
        exact ⟨left, optionFail_map _ _ _⟩
      · obtain ⟨value, left, rfl⟩ := List.exists_cons_of_ne_nil hgiven
        simp only [hset]
        cases tail with
        | nil => exact ⟨left, optionFail_map _ _ _⟩
        | cons b tail => exact ⟨value :: left, optionFail_map _ _ _⟩

lemma loop_fault (h : OptionFault options args calls) :
    optionParseLoop call options (fuel + 1) args = calls.allM call >>= fun _ => pure none := by
  have hsingle : ∀ c : OptionCall, [c].allM call = call c := fun c => by
    rw [Script.allM_cons]
    exact Script.andM_true _
  cases h with
  | @longUnknown text left hne hfind =>
    have hfind : optionFindLongEx options (text.takeWhile (· != 0x3D)) = none := hfind
    rw [hsingle]
    refine loop_fail (longArg_isOption _) (longArg_ne hne) (?_ : _ = _ >>= fun _ =>
      pure (false, left))
    rw [parseNext_long, optionParseLong]
    simp only [hfind]
    exact optionFail_map _ _ _
  | @longFlag text left option hvalue hfind hargument =>
    have hfind : optionFindLongEx options (text.takeWhile (· != 0x3D)) = some option := hfind
    rw [hsingle]
    refine loop_fail (longArg_isOption _) (longArg_ne (List.ne_nil_of_mem hvalue))
      (?_ : _ = _ >>= fun _ => pure (false, left))
    rw [parseNext_long, optionParseLong]
    simp only [hfind, hargument, if_pos hvalue, Option.isSome_some, if_true]
    exact optionFail_map _ _ _
  | @longMissing name option hname hne hfind hargument =>
    have htake : name.takeWhile (· != 0x3D) = name := takeWhile_bare hname
    rw [hsingle]
    refine loop_fail (longArg_isOption _) (longArg_ne hne) (?_ : _ = _ >>= fun _ =>
      pure (false, []))
    rw [parseNext_long, optionParseLong, htake]
    simp only [hfind, hargument, if_neg hname, and_self, if_true]
    exact optionFail_map _ _ _
  | @longVoid text left option hne hfind hhandler hvalue hflag hgiven =>
    have hfind : optionFindLongEx options (text.takeWhile (· != 0x3D)) = some option := hfind
    have hset : ∀ value, optionSet call option value =
        optionFail call "Option is not implemented" [] := optionSet_void hhandler hvalue
    have htoggle : optionToggle call option = optionFail call "Option is not implemented" [] :=
      optionToggle_void hhandler hvalue
    obtain ⟨rest, hrest⟩ : ∃ rest, optionParseNext call options (longArg text) left =
        call (optionMessage "Option is not implemented" []) >>= fun _ => pure (false, rest) := by
      rw [parseNext_long, optionParseLong]
      rcases hargument : option.argument with _ | _ | _
      · simp only [hfind, hargument, if_neg (hflag hargument), Option.isSome_none, htoggle,
          Bool.false_eq_true, if_false]
        exact ⟨left, optionFail_map _ _ _⟩
      · simp only [hfind, hargument, hset, Bool.false_eq_true, false_and, if_false]
        exact ⟨left, optionFail_map _ _ _⟩
      · obtain hgiven | hgiven := hgiven hargument
        · simp only [hfind, hargument, if_pos hgiven, hset, reduceCtorEq, and_false, if_false]
          exact ⟨left, optionFail_map _ _ _⟩
        · obtain ⟨value, left, rfl⟩ := List.exists_cons_of_ne_nil hgiven
          by_cases hmem : 0x3D ∈ text
          · simp only [hfind, hargument, if_pos hmem, hset, reduceCtorEq, and_false, if_false]
            exact ⟨value :: left, optionFail_map _ _ _⟩
          · simp only [hfind, hargument, if_neg hmem, hset, and_self, if_true]
            exact ⟨left, optionFail_map _ _ _⟩
    rw [hsingle]
    exact loop_fail (longArg_isOption _) (longArg_ne hne) hrest
  | @short flags tail flag left calls c hdash huses hfault =>
    have hhead := head_append hdash tail
    obtain ⟨rest, hrest⟩ : ∃ rest, optionParseShort call options left (flag :: tail) =
        call c >>= fun _ => pure (false, rest) := parseShort_fault hfault
    have harg : optionIsOption (shortArg (flags ++ flag :: tail)) = true :=
      shortArg_isOption (by simp)
    rw [Script.allM_append, hsingle, andM_bind, optionParseLoop, if_neg (by rw [harg]; decide),
      if_neg (shortArg_ne hhead), parseNext_short hhead, parseShort_uses huses, bind_assoc]
    refine bind_congr fun b => ?_
    cases b with
    | false => simp
    | true =>
      simp only [if_true, hrest, bind_assoc]
      refine bind_congr fun _ => ?_
      simp

omit [LawfulMonad m] in
lemma callable (option : CommandOption) : (option.handler = none ∧ option.value = none) ∨
    ((optionToggleCall option).isSome ∧ ∀ value, (optionSetCall option value).isSome) := by
  rw [optionToggleCall]
  simp only [optionSetCall]
  cases option.handler <;> cases option.value <;> simp

lemma shortUses_split (flags : List Byte) (left : List (List Byte)) :
    (∃ calls, ShortUses options flags calls) ∨
      ∃ before flag tail calls, flags = before ++ flag :: tail ∧ ShortUses options before calls ∧
        ((∃ option, optionFindShortEx options flag = some option ∧
            option.argument = .string true ∧ (tail ≠ [] ∨ left ≠ []) ∧
            ∀ value, (optionSetCall option (some value)).isSome) ∨
          ∃ c, ShortFault options flag tail left c) := by
  induction flags with
  | nil => exact .inl ⟨[], .nil⟩
  | cons flag flags ih =>
    cases hfind : optionFindShortEx options flag with
    | none => exact .inr ⟨[], flag, flags, [], rfl, .nil, .inr ⟨_, .unknown hfind⟩⟩
    | some option =>
      obtain ⟨hhandler, hvalue⟩ | ⟨htoggle, hset⟩ := callable option
      · by_cases hmissing : option.argument = .string true ∧ flags = [] ∧ left = []
        · obtain ⟨hargument, rfl, rfl⟩ := hmissing
          exact .inr ⟨[], flag, [], [], rfl, .nil, .inr ⟨_, .missing hfind hargument⟩⟩
        · refine .inr ⟨[], flag, flags, [], rfl, .nil, .inr ⟨_, .void hfind hhandler hvalue ?_⟩⟩
          intro hargument
          by_contra hnot
          rw [not_or, not_not, not_not] at hnot
          exact hmissing ⟨hargument, hnot.1, hnot.2⟩
      · by_cases hrequired : option.argument = .string true
        · by_cases hleft : flags ≠ [] ∨ left ≠ []
          · exact .inr ⟨[], flag, flags, [], rfl, .nil,
              .inl ⟨option, hfind, hrequired, hleft, fun value => hset (some value)⟩⟩
          · rw [not_or, not_not, not_not] at hleft
            obtain ⟨rfl, rfl⟩ := hleft
            exact .inr ⟨[], flag, [], [], rfl, .nil, .inr ⟨_, .missing hfind hrequired⟩⟩
        · obtain ⟨c, huse⟩ : ∃ c, BareUse option c := by
            rcases hargument : option.argument with _ | _ | _
            · obtain ⟨c, hc⟩ := Option.isSome_iff_exists.mp htoggle
              exact ⟨c, .toggle hargument hc⟩
            · obtain ⟨c, hc⟩ := Option.isSome_iff_exists.mp (hset none)
              exact ⟨c, .omitted hargument hc⟩
            · exact absurd hargument hrequired
          obtain ⟨calls, huses⟩ | ⟨before, last, tail, calls, rfl, huses, hlast⟩ := ih
          · exact .inl ⟨c :: calls, .cons hfind huse huses⟩
          · exact .inr ⟨flag :: before, last, tail, c :: calls, rfl, .cons hfind huse huses, hlast⟩

lemma optionName_value {text : List Byte} (h : 0x3D ∈ text) :
    ∃ value, text = optionName text ++ 0x3D :: value := by
  induction text with
  | nil => exact absurd h List.not_mem_nil
  | cons c text ih =>
    by_cases hc : c = 0x3D
    · subst hc
      exact ⟨text, rfl⟩
    · obtain ⟨value, hvalue⟩ := ih ((List.mem_cons.mp h).resolve_left fun he => hc he.symm)
      have htake : optionName (c :: text) = c :: optionName text :=
        List.takeWhile_cons_of_pos (bne_iff_ne.mpr hc)
      refine ⟨value, ?_⟩
      rw [htake, List.cons_append, ← hvalue]

lemma longWords_total {text : List Byte} (hne : text ≠ []) (left : List (List Byte)) :
    (∃ words rest calls, longArg text :: left = words ++ rest ∧ OptionWords options words calls) ∨
      ∃ calls, OptionFault options (longArg text :: left) calls := by
  cases hfind : optionFindLongEx options (optionName text) with
  | none => exact .inr ⟨_, .longUnknown hne hfind⟩
  | some option =>
    by_cases hflag : option.argument = .none ∧ 0x3D ∈ text
    · exact .inr ⟨_, .longFlag hflag.2 hfind hflag.1⟩
    by_cases hmissing : option.argument = .string true ∧ 0x3D ∉ text ∧ left = []
    · obtain ⟨hargument, hname, rfl⟩ := hmissing
      rw [takeWhile_bare hname] at hfind
      exact .inr ⟨_, .longMissing hname hne hfind hargument⟩
    obtain ⟨hhandler, hvalue⟩ | ⟨htoggle, hset⟩ := callable option
    · refine .inr ⟨_, .longVoid hne hfind hhandler hvalue (fun ha hmem => hflag ⟨ha, hmem⟩) ?_⟩
      intro ha
      by_contra hnot
      rw [not_or, not_not] at hnot
      exact hmissing ⟨ha, hnot⟩
    · refine .inl ?_
      by_cases hmem : 0x3D ∈ text
      · obtain ⟨value, htext⟩ := optionName_value hmem
        obtain ⟨c, hc⟩ := Option.isSome_iff_exists.mp (hset (some value))
        obtain ⟨required, hargument⟩ : ∃ required, option.argument = .string required := by
          cases ha : option.argument with
          | none => exact absurd ⟨ha, hmem⟩ hflag
          | string required => exact ⟨required, rfl⟩
        refine ⟨[longArg (optionName text ++ 0x3D :: value)], left, [c], ?_,
          .longJoined (not_mem_name text) hfind hargument hc⟩
        rw [← htext]
        rfl
      · rw [takeWhile_bare hmem] at hfind
        rcases hargument : option.argument with _ | _ | _
        · obtain ⟨c, hc⟩ := Option.isSome_iff_exists.mp htoggle
          exact ⟨[longArg text], left, [c], rfl, .long hmem hne hfind (.toggle hargument hc)⟩
        · obtain ⟨c, hc⟩ := Option.isSome_iff_exists.mp (hset none)
          exact ⟨[longArg text], left, [c], rfl, .long hmem hne hfind (.omitted hargument hc)⟩
        · cases left with
          | nil => exact absurd ⟨hargument, hmem, rfl⟩ hmissing
          | cons value left =>
            obtain ⟨c, hc⟩ := Option.isSome_iff_exists.mp (hset (some value))
            exact ⟨[longArg text, value], left, [c], rfl, .longNext hmem hne hfind hargument hc⟩

lemma shortWords_total {flags : List Byte} (hne : flags ≠ []) (hdash : flags.head? ≠ some 0x2D)
    (left : List (List Byte)) :
    (∃ words rest calls, shortArg flags :: left = words ++ rest ∧
        OptionWords options words calls) ∨
      ∃ calls, OptionFault options (shortArg flags :: left) calls := by
  have hhead : ∀ {before tail : List Byte} {flag : Byte}, flags = before ++ flag :: tail →
      (before ++ [flag]).head? ≠ some 0x2D := by
    rintro before tail flag rfl
    cases before <;> exact hdash
  obtain ⟨calls, huses⟩ | ⟨before, flag, tail, calls, hflags, huses, hlast⟩ :=
    @shortUses_split options flags left
  · exact .inl ⟨[shortArg flags], left, calls, rfl, .short hne hdash huses⟩
  · obtain ⟨option, hfind, hargument, hgiven, hset⟩ | ⟨c, hfault⟩ := hlast
    · refine .inl ?_
      by_cases htail : tail = []
      · subst htail
        obtain ⟨value, left, rfl⟩ := List.exists_cons_of_ne_nil (hgiven.resolve_left fun h => h rfl)
        obtain ⟨c, hc⟩ := Option.isSome_iff_exists.mp (hset value)
        exact ⟨[shortArg (before ++ [flag]), value], left, calls ++ [c], by rw [hflags]; rfl,
          .shortNext (hhead hflags) huses hfind hargument hc⟩
      · obtain ⟨c, hc⟩ := Option.isSome_iff_exists.mp (hset tail)
        exact ⟨[shortArg (before ++ flag :: tail)], left, calls ++ [c], by rw [hflags]; rfl,
          .shortJoined (hhead hflags) huses hfind hargument htail hc⟩
    · exact .inr ⟨calls ++ [c], by rw [hflags]; exact .short (hhead hflags) huses hfault⟩

lemma optionWords_length (h : OptionWords options words calls) : 1 ≤ words.length := by
  cases h <;> simp

lemma commandLine_total (args : List (List Byte)) :
    (∃ calls n, CommandLine options args calls n) ∨ ∃ calls, BadLine options args calls := by
  induction hlength : args.length using Nat.strong_induction_on generalizing args with
  | _ length ih =>
    obtain _ | ⟨arg, left⟩ := args
    · exact .inl ⟨[], 0, .done⟩
    cases harg : optionIsOption arg with
    | false => exact .inl ⟨[], 0, .stop harg⟩
    | true =>
      by_cases hdashes : arg = stringBytes "--"
      · subst hdashes
        exact .inl ⟨[], 1, .dashes⟩
      have hwords : (∃ words rest calls, arg :: left = words ++ rest ∧
          OptionWords options words calls) ∨ ∃ calls, OptionFault options (arg :: left) calls := by
        rcases arg with _ | ⟨a, _ | ⟨b, text⟩⟩
        · cases harg
        · rw [optionIsOption] at harg
          · cases harg
          · simp
        · obtain rfl : a = 0x2D := by
            by_contra ha
            rw [optionIsOption] at harg
            · cases harg
            · simpa using ha
          by_cases hb : b = 0x2D
          · subst hb
            have hne : text ≠ [] := by
              rintro rfl
              exact hdashes rfl
            exact longWords_total hne left
          · have hne : b :: text ≠ [] := List.cons_ne_nil _ _
            exact shortWords_total hne (by simpa using hb) left
      obtain ⟨words, rest, calls, hsplit, huse⟩ | ⟨calls, hfault⟩ := hwords
      · have hwords := optionWords_length huse
        have hsplitLength := congrArg List.length hsplit
        rw [List.length_append] at hsplitLength
        rw [hsplit]
        obtain ⟨more, n, hline⟩ | ⟨more, hbad⟩ := ih rest.length (by omega) rest rfl
        · exact .inl ⟨_, _, .uses huse hline⟩
        · exact .inr ⟨_, .uses huse hbad⟩
      · exact .inr ⟨calls, .fault hfault⟩

lemma loop_line (h : CommandLine options args calls n) (hfuel : args.length ≤ fuel) :
    n ≤ args.length ∧ optionParseLoop call options fuel args = calls.allM call >>= fun ok =>
      if ok then pure (some (args.drop n)) else pure none := by
  have hnil : ([] : List OptionCall).allM call = pure true := rfl
  induction h generalizing fuel with
  | done => cases fuel <;> exact ⟨le_rfl, by rw [hnil, pure_bind]; rfl⟩
  | stop harg =>
    refine ⟨Nat.zero_le _, ?_⟩
    rw [hnil, pure_bind, if_pos rfl]
    cases fuel with
    | zero => rfl
    | succ fuel =>
      rw [optionParseLoop, if_pos harg]
      rfl
  | dashes =>
    obtain ⟨fuel, rfl⟩ := Nat.exists_eq_succ_of_ne_zero (by rw [List.length_cons] at hfuel; omega :
      fuel ≠ 0)
    refine ⟨by simp, ?_⟩
    rw [hnil, pure_bind, if_pos rfl, optionParseLoop]
    rfl
  | @uses words rest calls more n hwords hrest ih =>
    have hlength := optionWords_length hwords
    rw [List.length_append] at hfuel ⊢
    obtain ⟨fuel, rfl⟩ := Nat.exists_eq_succ_of_ne_zero (by omega : fuel ≠ 0)
    have hfuel : rest.length ≤ fuel := by omega
    obtain ⟨hn, hloop⟩ := ih hfuel
    have hdrop : (words ++ rest).drop (words.length + n) = rest.drop n := by
      rw [List.drop_append, List.drop_eq_nil_of_le (Nat.le_add_right _ n), Nat.add_sub_cancel_left,
        List.nil_append]
    refine ⟨by omega, ?_⟩
    rw [loop_words hwords, Script.allM_append, andM_bind, hloop, hdrop]
    refine bind_congr fun b => ?_
    cases b <;> rfl

lemma loop_bad (h : BadLine options args calls) (hfuel : args.length ≤ fuel) :
    optionParseLoop call options fuel args = calls.allM call >>= fun _ => pure none := by
  induction h generalizing fuel with
  | fault hfault =>
    obtain ⟨fuel, rfl⟩ : ∃ k, fuel = k + 1 := by
      refine Nat.exists_eq_succ_of_ne_zero fun hzero => ?_
      cases hfault <;> simp [hzero] at hfuel
    exact loop_fault hfault
  | @uses words rest calls more hwords hrest ih =>
    have hlength := optionWords_length hwords
    rw [List.length_append] at hfuel
    obtain ⟨fuel, rfl⟩ := Nat.exists_eq_succ_of_ne_zero (by omega : fuel ≠ 0)
    have hfuel : rest.length ≤ fuel := by omega
    rw [loop_words hwords, Script.allM_append, andM_bind, ih hfuel]

lemma optionParse_line (h : CommandLine options args calls n) :
    n ≤ args.length ∧ optionParse call options args = calls.allM call >>= fun ok =>
      pure (if ok then some n else none) := by
  obtain ⟨hn, hloop⟩ : n ≤ args.length ∧ optionParseLoop call options args.length args =
      calls.allM call >>= fun ok => if ok then pure (some (args.drop n)) else pure none :=
    loop_line h le_rfl
  refine ⟨hn, ?_⟩
  rw [optionParse, hloop, map_bind]
  refine bind_congr fun b => ?_
  cases b with
  | false => simp
  | true =>
    simp only [if_true, map_pure, Option.map_some, List.length_drop]
    rw [Nat.sub_sub_self hn]

lemma optionParse_bad (h : BadLine options args calls) :
    optionParse call options args = calls.allM call >>= fun _ => pure none := by
  have hloop : optionParseLoop call options args.length args =
      calls.allM call >>= fun _ => pure none := loop_bad h le_rfl
  rw [optionParse, hloop, map_bind]
  refine bind_congr fun _ => ?_
  simp

end Parsed

lemma commandLine_not_bad {options : List OptionSet} {args : List (List Byte)}
    {calls faulty : List OptionCall} {n : ℕ} (h : CommandLine options args calls n) :
    ¬ BadLine options args faulty := by
  intro hbad
  let granted : OptionCall → Id Bool := fun _ => true
  have hall : calls.allM granted = true := by
    clear h hbad
    induction calls with
    | nil => rfl
    | cons c calls ih =>
      rw [Script.allM_cons]
      exact ih
  have hgood : optionParse granted options args = some n := by
    rw [(optionParse_line h).2, hall]
    rfl
  have hnone : optionParse granted options args = none := by
    rw [optionParse_bad hbad]
    rfl
  exact Option.some_ne_none n (hgood.symm.trans hnone)

/-- Parsing a command line makes the calls of the uses in it, as long as none is refused, and
returns how many arguments they take. Where there is a fault the calls before it are made, the
fault is told of and nothing is returned. Every command line is of one kind, and none of both. -/
theorem option_parse_exact {γ : Type} (call : OptionCall → StateM γ Bool)
    (options : List OptionSet) (args : List (List Byte)) :
    (∀ calls n, CommandLine options args calls n → n ≤ args.length ∧
        optionParse call options args = calls.allM call >>= fun ok =>
          pure (if ok then some n else none)) ∧
      (∀ calls, BadLine options args calls →
        optionParse call options args = calls.allM call >>= fun _ => pure none) ∧
      ((∃ calls n, CommandLine options args calls n) ∨ ∃ calls, BadLine options args calls) ∧
      ¬ ((∃ calls n, CommandLine options args calls n) ∧ ∃ calls, BadLine options args calls) :=
  ⟨fun _ _ => optionParse_line, fun _ => optionParse_bad, commandLine_total args,
    fun ⟨⟨_, _, hline⟩, _, hbad⟩ => commandLine_not_bad hline hbad⟩

end OpenDmi
