import RecordSql.Failure

/-!
# Names of failures

Every failure has a name, and so have the families of the library's own failures. `Failure.chain` lists the names that a
failure goes by, from its own to the widest.
-/

namespace RecordSql

/-- The families of the library by name, each in front of the wider ones. -/
def Family.named : List (String × Family) :=
  [("PoolError", .pool), ("ConnectionError", .connection), ("AdapterError", .adapter),
    ("TransactionError", .transaction), ("MappingError", .mapping), ("ExecutionError", .execution),
    ("ConstructionError", .construction), ("RowRepoError", .library)]

namespace Failure

/-- The name of a failure. -/
def name : Failure → String
  | .conditionRequired _ => "AtLeastOneConditionRequiredError"
  | .rowRequired _ => "AtLeastOneValueRequiredError"
  | .columnRequired _ => "AtLeastOneSelectionRequiredError"
  | .assignmentRequired _ => "UpdatedValuesRequiredError"
  | .unsupportedValue _ _ => "UnsupportedValueTypeError"
  | .tableDefinition _ _ => "RepositoryConfigurationError"
  | .relationDefinition _ _ => "RelationshipDefinitionError"
  | .queryFailed _ _ => "QueryFailedError"
  | .binding _ _ => "ParameterBindingError"
  | .missingFields _ _ => "FieldColumnMismatchError"
  | .illTyped _ _ | .rejectedFields _ _ => "TypeMismatchError"
  | .transactionState _ _ => "TransactionStateError"
  | .unsupportedDriver _ => "AdapterError"
  | .connectionFailed _ => "ConnectionError"
  | .poolExhausted => "PoolError"
  | .invalidData _ => "ValidationError"
  | .unknownStyle _ | .unknownRoute _ | .lengthMismatch _ | .unreadableWhole _ _ | .unknownBase
  | .oversizedWhole _ | .reservedName _ | .mutableDefault _ _ => "ValueError"
  | .noWhole x => if x.isNan then "ValueError" else "OverflowError"
  | .outOfRange => "OverflowError"
  | .outOfMemory => "MemoryError"
  | .brokenSignature => "SyntaxError"
  | .openConstructor _ | .wrongType | .badCall _ => "TypeError"
  | .absentColumn _ => "KeyError"
  | .absentAttribute => "AttributeError"
  | .driver e => e.name
  | .foreign e => e.name

/-- The names of a failure and of the families of the library that it belongs to, the narrowest first. -/
def chain (e : Failure) : List String :=
  let wider := (Family.named.filter fun (_, f) => e.isIn f).map (·.1)
  if wider.head? = some e.name then wider else e.name :: wider

end Failure

end RecordSql
