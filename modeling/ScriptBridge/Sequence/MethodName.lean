/-!
The methods of a sequence that the host serves, with the names scripts call them by.
-/

namespace ScriptBridge

inductive SequenceMethod where
  | push | pop | shift | unshift
  | join | toString | toLocaleString
  | indexOf | lastIndexOf | includes
  | concat | slice | splice | fill | copyWithin | reverse | sort
  | forEach | map | filter | some | every | find | findIndex
  | reduce | reduceRight | flat | flatMap
  | entries | keys | values | valueOf
deriving DecidableEq, Repr

namespace SequenceMethod

def name : SequenceMethod → String
  | push => "push"
  | pop => "pop"
  | shift => "shift"
  | unshift => "unshift"
  | join => "join"
  | toString => "toString"
  | toLocaleString => "toLocaleString"
  | indexOf => "indexOf"
  | lastIndexOf => "lastIndexOf"
  | includes => "includes"
  | concat => "concat"
  | slice => "slice"
  | splice => "splice"
  | fill => "fill"
  | copyWithin => "copyWithin"
  | reverse => "reverse"
  | sort => "sort"
  | forEach => "forEach"
  | map => "map"
  | filter => "filter"
  | some => "some"
  | every => "every"
  | find => "find"
  | findIndex => "findIndex"
  | reduce => "reduce"
  | reduceRight => "reduceRight"
  | flat => "flat"
  | flatMap => "flatMap"
  | entries => "entries"
  | keys => "keys"
  | values => "values"
  | valueOf => "valueOf"

def all : List SequenceMethod :=
  [push, pop, shift, unshift, join, toString, toLocaleString, indexOf, lastIndexOf, includes,
   concat, slice, splice, fill, copyWithin, reverse, sort, forEach, map, filter, some, every, find,
   findIndex, reduce, reduceRight, flat, flatMap, entries, keys, values, valueOf]

def ofName? (name : String) : Option SequenceMethod := all.find? (·.name == name)

end SequenceMethod

end ScriptBridge
