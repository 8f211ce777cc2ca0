import Bozo.Error

/-!
# SQLSTATE conditions

The enumerators of `sqlstate::code`, of which some stand for a whole class of
states, and the lists over which the switches of the category run.
-/

namespace Bozo

/-- `sqlstate::code`. -/
inductive Sqlstate
  | successfulCompletion | warning | dynamicResultSetsReturned | implicitZeroBitPadding
  | nullValueEliminatedInSetFunction | privilegeNotGranted | privilegeNotRevoked
  | stringDataRightTruncationWarning | deprecatedFeature | noData
  | noAdditionalDynamicResultSetsReturned | sqlStatementNotYetComplete | connectionException
  | connectionDoesNotExist | connectionFailure | sqlclientUnableToEstablishSqlconnection
  | sqlserverRejectedEstablishmentOfSqlconnection | transactionResolutionUnknown
  | protocolViolation | triggeredActionException | featureNotSupported
  | invalidTransactionInitiation | locatorException | invalidLocatorSpecification
  | invalidGrantor | invalidGrantOperation | invalidRoleSpecification | diagnosticsException
  | stackedDiagnosticsAccessedWithoutActiveHandler | caseNotFound | cardinalityViolation
  | dataException | arraySubscriptError | characterNotInRepertoire | datetimeFieldOverflow
  | divisionByZero | errorInAssignment | escapeCharacterConflict | indicatorOverflow
  | intervalFieldOverflow | invalidArgumentForLogarithm | invalidArgumentForNtileFunction
  | invalidArgumentForNthValueFunction | invalidArgumentForPowerFunction
  | invalidArgumentForWidthBucketFunction | invalidCharacterValueForCast | invalidDatetimeFormat
  | invalidEscapeCharacter | invalidEscapeOctet | invalidEscapeSequence
  | nonstandardUseOfEscapeCharacter | invalidIndicatorParameterValue | invalidParameterValue
  | invalidRegularExpression | invalidRowCountInLimitClause
  | invalidRowCountInResultOffsetClause | invalidTimeZoneDisplacementValue
  | invalidUseOfEscapeCharacter | mostSpecificTypeMismatch | nullValueNotAllowed
  | nullValueNoIndicatorParameter | numericValueOutOfRange | stringDataLengthMismatch
  | stringDataRightTruncation | substringError | trimError | unterminatedCString
  | zeroLengthCharacterString | floatingPointException | invalidTextRepresentation
  | invalidBinaryRepresentation | badCopyFileFormat | untranslatableCharacter | notAnXmlDocument
  | invalidXmlDocument | invalidXmlContent | invalidXmlComment | invalidXmlProcessingInstruction
  | integrityConstraintViolation | restrictViolation | notNullViolation | foreignKeyViolation
  | uniqueViolation | checkViolation | exclusionViolation | invalidCursorState
  | invalidTransactionState | activeSqlTransaction | branchTransactionAlreadyActive
  | heldCursorRequiresSameIsolationLevel | inappropriateAccessModeForBranchTransaction
  | inappropriateIsolationLevelForBranchTransaction | noActiveSqlTransactionForBranchTransaction
  | readOnlySqlTransaction | schemaAndDataStatementMixingNotSupported | noActiveSqlTransaction
  | inFailedSqlTransaction | invalidSqlStatementName | triggeredDataChangeViolation
  | invalidAuthorizationSpecification | invalidPassword
  | dependentPrivilegeDescriptorsStillExist | dependentObjectsStillExist
  | invalidTransactionTermination | sqlRoutineException | functionExecutedNoReturnStatement
  | modifyingSqlDataNotPermitted | prohibitedSqlStatementAttempted | readingSqlDataNotPermitted
  | invalidCursorName | externalRoutineException | containingSqlNotPermitted
  | modifyingSqlDataNotPermittedExternal | prohibitedSqlStatementAttemptedExternal
  | readingSqlDataNotPermittedExternal | externalRoutineInvocationException
  | invalidSqlstateReturned | nullValueNotAllowedExternal | triggerProtocolViolated
  | srfProtocolViolated | savepointException | invalidSavepointSpecification
  | invalidCatalogName | invalidSchemaName | transactionRollback
  | transactionIntegrityConstraintViolation | serializationFailure | statementCompletionUnknown
  | deadlockDetected | syntaxErrorOrAccessRuleViolation | syntaxError | insufficientPrivilege
  | cannotCoerce | groupingError | windowingError | invalidRecursion | invalidForeignKey
  | invalidName | nameTooLong | reservedName | datatypeMismatch | indeterminateDatatype
  | collationMismatch | indeterminateCollation | wrongObjectType | undefinedColumn
  | undefinedFunction | undefinedTable | undefinedParameter | undefinedObject | duplicateColumn
  | duplicateCursor | duplicateDatabase | duplicateFunction | duplicatePreparedStatement
  | duplicateSchema | duplicateTable | duplicateAlias | duplicateObject | ambiguousColumn
  | ambiguousFunction | ambiguousParameter | ambiguousAlias | invalidColumnReference
  | invalidColumnDefinition | invalidCursorDefinition | invalidDatabaseDefinition
  | invalidFunctionDefinition | invalidPreparedStatementDefinition | invalidSchemaDefinition
  | invalidTableDefinition | invalidObjectDefinition | withCheckOptionViolation
  | insufficientResources | diskFull | outOfMemory | tooManyConnections
  | configurationLimitExceeded | programLimitExceeded | statementTooComplex | tooManyColumns
  | tooManyArguments | objectNotInPrerequisiteState | objectInUse | cantChangeRuntimeParam
  | lockNotAvailable | operatorIntervention | queryCanceled | adminShutdown | crashShutdown
  | cannotConnectNow | databaseDropped | systemError | ioError | undefinedFile | duplicateFile
  | snapshotTooOld | configFileError | lockFileExists | fdwError | fdwColumnNameNotFound
  | fdwDynamicParameterValueNeeded | fdwFunctionSequenceError
  | fdwInconsistentDescriptorInformation | fdwInvalidAttributeValue | fdwInvalidColumnName
  | fdwInvalidColumnNumber | fdwInvalidDataType | fdwInvalidDataTypeDescriptors
  | fdwInvalidDescriptorFieldIdentifier | fdwInvalidHandle | fdwInvalidOptionIndex
  | fdwInvalidOptionName | fdwInvalidStringLengthOrBufferLength | fdwInvalidStringFormat
  | fdwInvalidUseOfNullPointer | fdwTooManyHandles | fdwOutOfMemory | fdwNoSchemas
  | fdwOptionNameNotFound | fdwReplyHandle | fdwSchemaNotFound | fdwTableNotFound
  | fdwUnableToCreateExecution | fdwUnableToCreateReply | fdwUnableToEstablishConnection
  | plpgsqlError | raiseException | noDataFound | tooManyRows | internalError | dataCorrupted
  | indexCorrupted
  deriving DecidableEq, Repr

namespace Sqlstate

/-- An enumerator as it is written and its value. -/
def entry : Sqlstate → String × Int
  | .successfulCompletion => ("successful_completion", 0)
  | .warning => ("warning", 46656)
  | .dynamicResultSetsReturned => ("dynamic_result_sets_returned", 46668)
  | .implicitZeroBitPadding => ("implicit_zero_bit_padding", 46664)
  | .nullValueEliminatedInSetFunction => ("null_value_eliminated_in_set_function", 46659)
  | .privilegeNotGranted => ("privilege_not_granted", 46663)
  | .privilegeNotRevoked => ("privilege_not_revoked", 46662)
  | .stringDataRightTruncationWarning => ("string_data_right_truncation_warning", 46660)
  | .deprecatedFeature => ("deprecated_feature", 79057)
  | .noData => ("no_data", 93312)
  | .noAdditionalDynamicResultSetsReturned => ("no_additional_dynamic_result_sets_returned", 93313)
  | .sqlStatementNotYetComplete => ("sql_statement_not_yet_complete", 139968)
  | .connectionException => ("connection_exception", 373248)
  | .connectionDoesNotExist => ("connection_does_not_exist", 373251)
  | .connectionFailure => ("connection_failure", 373254)
  | .sqlclientUnableToEstablishSqlconnection => ("sqlclient_unable_to_establish_sqlconnection", 373249)
  | .sqlserverRejectedEstablishmentOfSqlconnection => ("sqlserver_rejected_establishment_of_sqlconnection", 373252)
  | .transactionResolutionUnknown => ("transaction_resolution_unknown", 373255)
  | .protocolViolation => ("protocol_violation", 405649)
  | .triggeredActionException => ("triggered_action_exception", 419904)
  | .featureNotSupported => ("feature_not_supported", 466560)
  | .invalidTransactionInitiation => ("invalid_transaction_initiation", 513216)
  | .locatorException => ("locator_exception", 699840)
  | .invalidLocatorSpecification => ("invalid_locator_specification", 699841)
  | .invalidGrantor => ("invalid_grantor", 979776)
  | .invalidGrantOperation => ("invalid_grant_operation", 1012177)
  | .invalidRoleSpecification => ("invalid_role_specification", 1166400)
  | .diagnosticsException => ("diagnostics_exception", 1632960)
  | .stackedDiagnosticsAccessedWithoutActiveHandler => ("stacked_diagnostics_accessed_without_active_handler", 1632962)
  | .caseNotFound => ("case_not_found", 3359232)
  | .cardinalityViolation => ("cardinality_violation", 3405888)
  | .dataException => ("data_exception", 3452544)
  | .arraySubscriptError => ("array_subscript_error", 3452630)
  | .characterNotInRepertoire => ("character_not_in_repertoire", 3452617)
  | .datetimeFieldOverflow => ("datetime_field_overflow", 3452552)
  | .divisionByZero => ("division_by_zero", 3452582)
  | .errorInAssignment => ("error_in_assignment", 3452549)
  | .escapeCharacterConflict => ("escape_character_conflict", 3452555)
  | .indicatorOverflow => ("indicator_overflow", 3452618)
  | .intervalFieldOverflow => ("interval_field_overflow", 3452585)
  | .invalidArgumentForLogarithm => ("invalid_argument_for_logarithm", 3452594)
  | .invalidArgumentForNtileFunction => ("invalid_argument_for_ntile_function", 3452584)
  | .invalidArgumentForNthValueFunction => ("invalid_argument_for_nth_value_function", 3452586)
  | .invalidArgumentForPowerFunction => ("invalid_argument_for_power_function", 3452595)
  | .invalidArgumentForWidthBucketFunction => ("invalid_argument_for_width_bucket_function", 3452596)
  | .invalidCharacterValueForCast => ("invalid_character_value_for_cast", 3452588)
  | .invalidDatetimeFormat => ("invalid_datetime_format", 3452551)
  | .invalidEscapeCharacter => ("invalid_escape_character", 3452589)
  | .invalidEscapeOctet => ("invalid_escape_octet", 3452557)
  | .invalidEscapeSequence => ("invalid_escape_sequence", 3452621)
  | .nonstandardUseOfEscapeCharacter => ("nonstandard_use_of_escape_character", 3484950)
  | .invalidIndicatorParameterValue => ("invalid_indicator_parameter_value", 3452580)
  | .invalidParameterValue => ("invalid_parameter_value", 3452619)
  | .invalidRegularExpression => ("invalid_regular_expression", 3452591)
  | .invalidRowCountInLimitClause => ("invalid_row_count_in_limit_clause", 3452612)
  | .invalidRowCountInResultOffsetClause => ("invalid_row_count_in_result_offset_clause", 3452613)
  | .invalidTimeZoneDisplacementValue => ("invalid_time_zone_displacement_value", 3452553)
  | .invalidUseOfEscapeCharacter => ("invalid_use_of_escape_character", 3452556)
  | .mostSpecificTypeMismatch => ("most_specific_type_mismatch", 3452560)
  | .nullValueNotAllowed => ("null_value_not_allowed", 3452548)
  | .nullValueNoIndicatorParameter => ("null_value_no_indicator_parameter", 3452546)
  | .numericValueOutOfRange => ("numeric_value_out_of_range", 3452547)
  | .stringDataLengthMismatch => ("string_data_length_mismatch", 3452622)
  | .stringDataRightTruncation => ("string_data_right_truncation", 3452545)
  | .substringError => ("substring_error", 3452581)
  | .trimError => ("trim_error", 3452623)
  | .unterminatedCString => ("unterminated_c_string", 3452620)
  | .zeroLengthCharacterString => ("zero_length_character_string", 3452559)
  | .floatingPointException => ("floating_point_exception", 3484945)
  | .invalidTextRepresentation => ("invalid_text_representation", 3484946)
  | .invalidBinaryRepresentation => ("invalid_binary_representation", 3484947)
  | .badCopyFileFormat => ("bad_copy_file_format", 3484948)
  | .untranslatableCharacter => ("untranslatable_character", 3484949)
  | .notAnXmlDocument => ("not_an_xml_document", 3452565)
  | .invalidXmlDocument => ("invalid_xml_document", 3452566)
  | .invalidXmlContent => ("invalid_xml_content", 3452567)
  | .invalidXmlComment => ("invalid_xml_comment", 3452572)
  | .invalidXmlProcessingInstruction => ("invalid_xml_processing_instruction", 3452573)
  | .integrityConstraintViolation => ("integrity_constraint_violation", 3499200)
  | .restrictViolation => ("restrict_violation", 3499201)
  | .notNullViolation => ("not_null_violation", 3505682)
  | .foreignKeyViolation => ("foreign_key_violation", 3505683)
  | .uniqueViolation => ("unique_violation", 3505685)
  | .checkViolation => ("check_violation", 3505720)
  | .exclusionViolation => ("exclusion_violation", 3531601)
  | .invalidCursorState => ("invalid_cursor_state", 3545856)
  | .invalidTransactionState => ("invalid_transaction_state", 3592512)
  | .activeSqlTransaction => ("active_sql_transaction", 3592513)
  | .branchTransactionAlreadyActive => ("branch_transaction_already_active", 3592514)
  | .heldCursorRequiresSameIsolationLevel => ("held_cursor_requires_same_isolation_level", 3592520)
  | .inappropriateAccessModeForBranchTransaction => ("inappropriate_access_mode_for_branch_transaction", 3592515)
  | .inappropriateIsolationLevelForBranchTransaction => ("inappropriate_isolation_level_for_branch_transaction", 3592516)
  | .noActiveSqlTransactionForBranchTransaction => ("no_active_sql_transaction_for_branch_transaction", 3592517)
  | .readOnlySqlTransaction => ("read_only_sql_transaction", 3592518)
  | .schemaAndDataStatementMixingNotSupported => ("schema_and_data_statement_mixing_not_supported", 3592519)
  | .noActiveSqlTransaction => ("no_active_sql_transaction", 3624913)
  | .inFailedSqlTransaction => ("in_failed_sql_transaction", 3624914)
  | .invalidSqlStatementName => ("invalid_sql_statement_name", 3639168)
  | .triggeredDataChangeViolation => ("triggered_data_change_violation", 3685824)
  | .invalidAuthorizationSpecification => ("invalid_authorization_specification", 3732480)
  | .invalidPassword => ("invalid_password", 3764881)
  | .dependentPrivilegeDescriptorsStillExist => ("dependent_privilege_descriptors_still_exist", 3872448)
  | .dependentObjectsStillExist => ("dependent_objects_still_exist", 3904849)
  | .invalidTransactionTermination => ("invalid_transaction_termination", 3965760)
  | .sqlRoutineException => ("sql_routine_exception", 4059072)
  | .functionExecutedNoReturnStatement => ("function_executed_no_return_statement", 4059077)
  | .modifyingSqlDataNotPermitted => ("modifying_sql_data_not_permitted", 4059074)
  | .prohibitedSqlStatementAttempted => ("prohibited_sql_statement_attempted", 4059075)
  | .readingSqlDataNotPermitted => ("reading_sql_data_not_permitted", 4059076)
  | .invalidCursorName => ("invalid_cursor_name", 5225472)
  | .externalRoutineException => ("external_routine_exception", 5412096)
  | .containingSqlNotPermitted => ("containing_sql_not_permitted", 5412097)
  | .modifyingSqlDataNotPermittedExternal => ("modifying_sql_data_not_permitted_external", 5412098)
  | .prohibitedSqlStatementAttemptedExternal => ("prohibited_sql_statement_attempted_external", 5412099)
  | .readingSqlDataNotPermittedExternal => ("reading_sql_data_not_permitted_external", 5412100)
  | .externalRoutineInvocationException => ("external_routine_invocation_exception", 5458752)
  | .invalidSqlstateReturned => ("invalid_sqlstate_returned", 5458753)
  | .nullValueNotAllowedExternal => ("null_value_not_allowed_external", 5458756)
  | .triggerProtocolViolated => ("trigger_protocol_violated", 5491153)
  | .srfProtocolViolated => ("srf_protocol_violated", 5491154)
  | .savepointException => ("savepoint_exception", 5552064)
  | .invalidSavepointSpecification => ("invalid_savepoint_specification", 5552065)
  | .invalidCatalogName => ("invalid_catalog_name", 5645376)
  | .invalidSchemaName => ("invalid_schema_name", 5738688)
  | .transactionRollback => ("transaction_rollback", 6718464)
  | .transactionIntegrityConstraintViolation => ("transaction_integrity_constraint_violation", 6718466)
  | .serializationFailure => ("serialization_failure", 6718465)
  | .statementCompletionUnknown => ("statement_completion_unknown", 6718467)
  | .deadlockDetected => ("deadlock_detected", 6750865)
  | .syntaxErrorOrAccessRuleViolation => ("syntax_error_or_access_rule_violation", 6811776)
  | .syntaxError => ("syntax_error", 6819553)
  | .insufficientPrivilege => ("insufficient_privilege", 6818257)
  | .cannotCoerce => ("cannot_coerce", 6822294)
  | .groupingError => ("grouping_error", 6822147)
  | .windowingError => ("windowing_error", 6844248)
  | .invalidRecursion => ("invalid_recursion", 6844221)
  | .invalidForeignKey => ("invalid_foreign_key", 6822252)
  | .invalidName => ("invalid_name", 6819554)
  | .nameTooLong => ("name_too_long", 6819626)
  | .reservedName => ("reserved_name", 6823557)
  | .datatypeMismatch => ("datatype_mismatch", 6822148)
  | .indeterminateDatatype => ("indeterminate_datatype", 6844220)
  | .collationMismatch => ("collation_mismatch", 6844249)
  | .indeterminateCollation => ("indeterminate_collation", 6844250)
  | .wrongObjectType => ("wrong_object_type", 6822153)
  | .undefinedColumn => ("undefined_column", 6820851)
  | .undefinedFunction => ("undefined_function", 6822435)
  | .undefinedTable => ("undefined_table", 6844177)
  | .undefinedParameter => ("undefined_parameter", 6844178)
  | .undefinedObject => ("undefined_object", 6820852)
  | .duplicateColumn => ("duplicate_column", 6820849)
  | .duplicateCursor => ("duplicate_cursor", 6844179)
  | .duplicateDatabase => ("duplicate_database", 6844180)
  | .duplicateFunction => ("duplicate_function", 6820923)
  | .duplicatePreparedStatement => ("duplicate_prepared_statement", 6844181)
  | .duplicateSchema => ("duplicate_schema", 6844182)
  | .duplicateTable => ("duplicate_table", 6844183)
  | .duplicateAlias => ("duplicate_alias", 6820886)
  | .duplicateObject => ("duplicate_object", 6820884)
  | .ambiguousColumn => ("ambiguous_column", 6820850)
  | .ambiguousFunction => ("ambiguous_function", 6820925)
  | .ambiguousParameter => ("ambiguous_parameter", 6844184)
  | .ambiguousAlias => ("ambiguous_alias", 6844185)
  | .invalidColumnReference => ("invalid_column_reference", 6844212)
  | .invalidColumnDefinition => ("invalid_column_definition", 6819589)
  | .invalidCursorDefinition => ("invalid_cursor_definition", 6844213)
  | .invalidDatabaseDefinition => ("invalid_database_definition", 6844214)
  | .invalidFunctionDefinition => ("invalid_function_definition", 6844215)
  | .invalidPreparedStatementDefinition => ("invalid_prepared_statement_definition", 6844216)
  | .invalidSchemaDefinition => ("invalid_schema_definition", 6844217)
  | .invalidTableDefinition => ("invalid_table_definition", 6844218)
  | .invalidObjectDefinition => ("invalid_object_definition", 6844219)
  | .withCheckOptionViolation => ("with_check_option_violation", 6905088)
  | .insufficientResources => ("insufficient_resources", 8538048)
  | .diskFull => ("disk_full", 8539344)
  | .outOfMemory => ("out_of_memory", 8540640)
  | .tooManyConnections => ("too_many_connections", 8541936)
  | .configurationLimitExceeded => ("configuration_limit_exceeded", 8543232)
  | .programLimitExceeded => ("program_limit_exceeded", 8584704)
  | .statementTooComplex => ("statement_too_complex", 8584705)
  | .tooManyColumns => ("too_many_columns", 8584741)
  | .tooManyArguments => ("too_many_arguments", 8584779)
  | .objectNotInPrerequisiteState => ("object_not_in_prerequisite_state", 8631360)
  | .objectInUse => ("object_in_use", 8631366)
  | .cantChangeRuntimeParam => ("cant_change_runtime_param", 8663762)
  | .lockNotAvailable => ("lock_not_available", 8663763)
  | .operatorIntervention => ("operator_intervention", 8724672)
  | .queryCanceled => ("query_canceled", 8724712)
  | .adminShutdown => ("admin_shutdown", 8757073)
  | .crashShutdown => ("crash_shutdown", 8757074)
  | .cannotConnectNow => ("cannot_connect_now", 8757075)
  | .databaseDropped => ("database_dropped", 8757076)
  | .systemError => ("system_error", 8771328)
  | .ioError => ("io_error", 8771436)
  | .undefinedFile => ("undefined_file", 8803729)
  | .duplicateFile => ("duplicate_file", 8803730)
  | .snapshotTooOld => ("snapshot_too_old", 11850624)
  | .configFileError => ("config_file_error", 25194240)
  | .lockFileExists => ("lock_file_exists", 25194241)
  | .fdwError => ("fdw_error", 29999808)
  | .fdwColumnNameNotFound => ("fdw_column_name_not_found", 29999813)
  | .fdwDynamicParameterValueNeeded => ("fdw_dynamic_parameter_value_needed", 29999810)
  | .fdwFunctionSequenceError => ("fdw_function_sequence_error", 29999844)
  | .fdwInconsistentDescriptorInformation => ("fdw_inconsistent_descriptor_information", 29999881)
  | .fdwInvalidAttributeValue => ("fdw_invalid_attribute_value", 29999884)
  | .fdwInvalidColumnName => ("fdw_invalid_column_name", 29999815)
  | .fdwInvalidColumnNumber => ("fdw_invalid_column_number", 29999816)
  | .fdwInvalidDataType => ("fdw_invalid_data_type", 29999812)
  | .fdwInvalidDataTypeDescriptors => ("fdw_invalid_data_type_descriptors", 29999814)
  | .fdwInvalidDescriptorFieldIdentifier => ("fdw_invalid_descriptor_field_identifier", 30000133)
  | .fdwInvalidHandle => ("fdw_invalid_handle", 29999819)
  | .fdwInvalidOptionIndex => ("fdw_invalid_option_index", 29999820)
  | .fdwInvalidOptionName => ("fdw_invalid_option_name", 29999821)
  | .fdwInvalidStringLengthOrBufferLength => ("fdw_invalid_string_length_or_buffer_length", 30000132)
  | .fdwInvalidStringFormat => ("fdw_invalid_string_format", 29999818)
  | .fdwInvalidUseOfNullPointer => ("fdw_invalid_use_of_null_pointer", 29999817)
  | .fdwTooManyHandles => ("fdw_too_many_handles", 29999848)
  | .fdwOutOfMemory => ("fdw_out_of_memory", 29999809)
  | .fdwNoSchemas => ("fdw_no_schemas", 29999833)
  | .fdwOptionNameNotFound => ("fdw_option_name_not_found", 29999827)
  | .fdwReplyHandle => ("fdw_reply_handle", 29999828)
  | .fdwSchemaNotFound => ("fdw_schema_not_found", 29999834)
  | .fdwTableNotFound => ("fdw_table_not_found", 29999835)
  | .fdwUnableToCreateExecution => ("fdw_unable_to_create_execution", 29999829)
  | .fdwUnableToCreateReply => ("fdw_unable_to_create_reply", 29999830)
  | .fdwUnableToEstablishConnection => ("fdw_unable_to_establish_connection", 29999831)
  | .plpgsqlError => ("plpgsql_error", 41990400)
  | .raiseException => ("raise_exception", 41990401)
  | .noDataFound => ("no_data_found", 41990402)
  | .tooManyRows => ("too_many_rows", 41990403)
  | .internalError => ("internal_error", 56966976)
  | .dataCorrupted => ("data_corrupted", 56966977)
  | .indexCorrupted => ("index_corrupted", 56966978)

def name (c : Sqlstate) : String :=
  c.entry.1

def value (c : Sqlstate) : Int :=
  c.entry.2

/-- The cases of the switch in `message`, which leaves out `snapshot_too_old`. -/
def named : List Sqlstate :=
  [ .successfulCompletion, .warning, .dynamicResultSetsReturned, .implicitZeroBitPadding,
    .nullValueEliminatedInSetFunction, .privilegeNotGranted, .privilegeNotRevoked,
    .stringDataRightTruncationWarning, .deprecatedFeature, .noData,
    .noAdditionalDynamicResultSetsReturned, .sqlStatementNotYetComplete, .connectionException,
    .connectionDoesNotExist, .connectionFailure, .sqlclientUnableToEstablishSqlconnection,
    .sqlserverRejectedEstablishmentOfSqlconnection, .transactionResolutionUnknown,
    .protocolViolation, .triggeredActionException, .featureNotSupported,
    .invalidTransactionInitiation, .locatorException, .invalidLocatorSpecification,
    .invalidGrantor, .invalidGrantOperation, .invalidRoleSpecification, .diagnosticsException,
    .stackedDiagnosticsAccessedWithoutActiveHandler, .caseNotFound, .cardinalityViolation,
    .dataException, .arraySubscriptError, .characterNotInRepertoire, .datetimeFieldOverflow,
    .divisionByZero, .errorInAssignment, .escapeCharacterConflict, .indicatorOverflow,
    .intervalFieldOverflow, .invalidArgumentForLogarithm, .invalidArgumentForNtileFunction,
    .invalidArgumentForNthValueFunction, .invalidArgumentForPowerFunction,
    .invalidArgumentForWidthBucketFunction, .invalidCharacterValueForCast,
    .invalidDatetimeFormat, .invalidEscapeCharacter, .invalidEscapeOctet,
    .invalidEscapeSequence, .nonstandardUseOfEscapeCharacter, .invalidIndicatorParameterValue,
    .invalidParameterValue, .invalidRegularExpression, .invalidRowCountInLimitClause,
    .invalidRowCountInResultOffsetClause, .invalidTimeZoneDisplacementValue,
    .invalidUseOfEscapeCharacter, .mostSpecificTypeMismatch, .nullValueNotAllowed,
    .nullValueNoIndicatorParameter, .numericValueOutOfRange, .stringDataLengthMismatch,
    .stringDataRightTruncation, .substringError, .trimError, .unterminatedCString,
    .zeroLengthCharacterString, .floatingPointException, .invalidTextRepresentation,
    .invalidBinaryRepresentation, .badCopyFileFormat, .untranslatableCharacter,
    .notAnXmlDocument, .invalidXmlDocument, .invalidXmlContent, .invalidXmlComment,
    .invalidXmlProcessingInstruction, .integrityConstraintViolation, .restrictViolation,
    .notNullViolation, .foreignKeyViolation, .uniqueViolation, .checkViolation,
    .exclusionViolation, .invalidCursorState, .invalidTransactionState, .activeSqlTransaction,
    .branchTransactionAlreadyActive, .heldCursorRequiresSameIsolationLevel,
    .inappropriateAccessModeForBranchTransaction,
    .inappropriateIsolationLevelForBranchTransaction,
    .noActiveSqlTransactionForBranchTransaction, .readOnlySqlTransaction,
    .schemaAndDataStatementMixingNotSupported, .noActiveSqlTransaction,
    .inFailedSqlTransaction, .invalidSqlStatementName, .triggeredDataChangeViolation,
    .invalidAuthorizationSpecification, .invalidPassword,
    .dependentPrivilegeDescriptorsStillExist, .dependentObjectsStillExist,
    .invalidTransactionTermination, .sqlRoutineException, .functionExecutedNoReturnStatement,
    .modifyingSqlDataNotPermitted, .prohibitedSqlStatementAttempted,
    .readingSqlDataNotPermitted, .invalidCursorName, .externalRoutineException,
    .containingSqlNotPermitted, .modifyingSqlDataNotPermittedExternal,
    .prohibitedSqlStatementAttemptedExternal, .readingSqlDataNotPermittedExternal,
    .externalRoutineInvocationException, .invalidSqlstateReturned,
    .nullValueNotAllowedExternal, .triggerProtocolViolated, .srfProtocolViolated,
    .savepointException, .invalidSavepointSpecification, .invalidCatalogName,
    .invalidSchemaName, .transactionRollback, .transactionIntegrityConstraintViolation,
    .serializationFailure, .statementCompletionUnknown, .deadlockDetected,
    .syntaxErrorOrAccessRuleViolation, .syntaxError, .insufficientPrivilege, .cannotCoerce,
    .groupingError, .windowingError, .invalidRecursion, .invalidForeignKey, .invalidName,
    .nameTooLong, .reservedName, .datatypeMismatch, .indeterminateDatatype, .collationMismatch,
    .indeterminateCollation, .wrongObjectType, .undefinedColumn, .undefinedFunction,
    .undefinedTable, .undefinedParameter, .undefinedObject, .duplicateColumn, .duplicateCursor,
    .duplicateDatabase, .duplicateFunction, .duplicatePreparedStatement, .duplicateSchema,
    .duplicateTable, .duplicateAlias, .duplicateObject, .ambiguousColumn, .ambiguousFunction,
    .ambiguousParameter, .ambiguousAlias, .invalidColumnReference, .invalidColumnDefinition,
    .invalidCursorDefinition, .invalidDatabaseDefinition, .invalidFunctionDefinition,
    .invalidPreparedStatementDefinition, .invalidSchemaDefinition, .invalidTableDefinition,
    .invalidObjectDefinition, .withCheckOptionViolation, .insufficientResources, .diskFull,
    .outOfMemory, .tooManyConnections, .configurationLimitExceeded, .programLimitExceeded,
    .statementTooComplex, .tooManyColumns, .tooManyArguments, .objectNotInPrerequisiteState,
    .objectInUse, .cantChangeRuntimeParam, .lockNotAvailable, .operatorIntervention,
    .queryCanceled, .adminShutdown, .crashShutdown, .cannotConnectNow, .databaseDropped,
    .systemError, .ioError, .undefinedFile, .duplicateFile, .configFileError, .lockFileExists,
    .fdwError, .fdwColumnNameNotFound, .fdwDynamicParameterValueNeeded,
    .fdwFunctionSequenceError, .fdwInconsistentDescriptorInformation,
    .fdwInvalidAttributeValue, .fdwInvalidColumnName, .fdwInvalidColumnNumber,
    .fdwInvalidDataType, .fdwInvalidDataTypeDescriptors, .fdwInvalidDescriptorFieldIdentifier,
    .fdwInvalidHandle, .fdwInvalidOptionIndex, .fdwInvalidOptionName,
    .fdwInvalidStringLengthOrBufferLength, .fdwInvalidStringFormat,
    .fdwInvalidUseOfNullPointer, .fdwTooManyHandles, .fdwOutOfMemory, .fdwNoSchemas,
    .fdwOptionNameNotFound, .fdwReplyHandle, .fdwSchemaNotFound, .fdwTableNotFound,
    .fdwUnableToCreateExecution, .fdwUnableToCreateReply, .fdwUnableToEstablishConnection,
    .plpgsqlError, .raiseException, .noDataFound, .tooManyRows, .internalError, .dataCorrupted,
    .indexCorrupted]

/-- The cases of the switch in `equivalent`: the conditions that stand for a
class. -/
def classes : List Sqlstate :=
  [ .warning, .noData, .sqlStatementNotYetComplete, .connectionException,
    .triggeredActionException, .featureNotSupported, .invalidTransactionInitiation,
    .locatorException, .invalidGrantor, .invalidRoleSpecification, .diagnosticsException,
    .caseNotFound, .cardinalityViolation, .dataException, .integrityConstraintViolation,
    .invalidCursorState, .invalidTransactionState, .invalidSqlStatementName,
    .triggeredDataChangeViolation, .invalidAuthorizationSpecification,
    .dependentPrivilegeDescriptorsStillExist, .invalidTransactionTermination,
    .sqlRoutineException, .invalidCursorName, .externalRoutineException,
    .externalRoutineInvocationException, .savepointException, .invalidCatalogName,
    .invalidSchemaName, .transactionRollback, .syntaxErrorOrAccessRuleViolation,
    .withCheckOptionViolation, .insufficientResources, .programLimitExceeded,
    .objectNotInPrerequisiteState, .operatorIntervention, .systemError, .snapshotTooOld,
    .configFileError, .fdwError, .plpgsqlError, .internalError]

/-- The characters of a class, as the comment at its enumerator gives them. -/
def className : Sqlstate → String
  | .warning => "01"
  | .noData => "02"
  | .sqlStatementNotYetComplete => "03"
  | .connectionException => "08"
  | .triggeredActionException => "09"
  | .featureNotSupported => "0A"
  | .invalidTransactionInitiation => "0B"
  | .locatorException => "0F"
  | .invalidGrantor => "0L"
  | .invalidRoleSpecification => "0P"
  | .diagnosticsException => "0Z"
  | .caseNotFound => "20"
  | .cardinalityViolation => "21"
  | .dataException => "22"
  | .integrityConstraintViolation => "23"
  | .invalidCursorState => "24"
  | .invalidTransactionState => "25"
  | .invalidSqlStatementName => "26"
  | .triggeredDataChangeViolation => "27"
  | .invalidAuthorizationSpecification => "28"
  | .dependentPrivilegeDescriptorsStillExist => "2B"
  | .invalidTransactionTermination => "2D"
  | .sqlRoutineException => "2F"
  | .invalidCursorName => "34"
  | .externalRoutineException => "38"
  | .externalRoutineInvocationException => "39"
  | .savepointException => "3B"
  | .invalidCatalogName => "3D"
  | .invalidSchemaName => "3F"
  | .transactionRollback => "40"
  | .syntaxErrorOrAccessRuleViolation => "42"
  | .withCheckOptionViolation => "44"
  | .insufficientResources => "53"
  | .programLimitExceeded => "54"
  | .objectNotInPrerequisiteState => "55"
  | .operatorIntervention => "57"
  | .systemError => "58"
  | .snapshotTooOld => "72"
  | .configFileError => "F0"
  | .fdwError => "HV"
  | .plpgsqlError => "P0"
  | .internalError => "XX"
  | _ => ""

end Sqlstate

end Bozo
