/-
Options of one run of code generation.

Arguments are applied from left to right on top of given options, and the first
that cannot be applied ends the matter.
-/

import LiteralGrammar.Target.Basic

namespace LiteralGrammar

structure Options where
  target : Target
  verbose : Bool
  deriving DecidableEq, Repr

inductive OptionError where
  | unknownTarget (unknown : UnknownTarget)
  | unknownOption (argument : String)
  deriving DecidableEq, Repr

namespace OptionError

def message : OptionError → String
  | unknownTarget unknown => unknown.message
  | unknownOption argument => "unknown option '" ++ argument ++ "'"

end OptionError

namespace Options

def default : Options :=
  { target := .java
    verbose := false }

def targetFlag : List Char :=
  "--target=".toList

/-- What follows the target flag in an argument that begins with it. -/
def targetName? (argument : String) : Option String :=
  (List.isPrefixOf? targetFlag argument.toList).map String.ofList

def isVerboseFlag (argument : String) : Bool :=
  argument = "-v" || argument = "--verbose"

def withTarget (options : Options) (name : String) : Except OptionError Options :=
  match Target.ofName name with
  | .ok target => .ok { options with target := target }
  | .error unknown => .error (.unknownTarget unknown)

def applyArgument (options : Options) (argument : String) : Except OptionError Options :=
  match targetName? argument with
  | some name => options.withTarget name
  | none =>
      if isVerboseFlag argument then .ok { options with verbose := true }
      else .error (.unknownOption argument)

def applyAll (options : Options) : List String → Except OptionError Options
  | [] => .ok options
  | argument :: rest =>
      match options.applyArgument argument with
      | .ok applied => applied.applyAll rest
      | .error error => .error error

/-- The default options, with the target named by an environment variable.  A value that is no
valid text counts as unset. -/
def ofEnvironment (value : Option ByteArray) : Except OptionError Options :=
  match value.bind String.fromUTF8? with
  | some name => default.withTarget name
  | none => .ok default

end Options

end LiteralGrammar
