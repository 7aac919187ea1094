namespace PluginAudit.Php

/-- The kind of a node. A `token` is punctuation or a keyword; all other kinds are named. -/
inductive Kind where
  | token | program | text | phpTag | textInterpolation | comment | error | name | qualifiedName
  | relativeName | relativeScope | namespaceName | variableName | dynamicVariableName | integer
  | float | boolean | null | string | encapsedString | heredoc | nowdoc | stringContent
  | heredocBody | nowdocBody | shellCommandExpression | arguments | argument
  | variadicPlaceholder | variadicUnpacking | functionCallExpression | memberCallExpression
  | nullsafeMemberCallExpression | memberAccessExpression | nullsafeMemberAccessExpression
  | scopedCallExpression | scopedPropertyAccessExpression | classConstantAccessExpression
  | subscriptExpression | objectCreationExpression | anonymousClass | binaryExpression
  | unaryOpExpression | updateExpression | errorSuppressionExpression | cloneExpression
  | printIntrinsic | throwExpression | castExpression | castType | conditionalExpression
  | matchExpression | matchBlock | matchConditionalExpression | matchDefaultExpression
  | matchConditionList | assignmentExpression | referenceAssignmentExpression
  | augmentedAssignmentExpression | listLiteral | yieldExpression | parenthesizedExpression
  | sequenceExpression | arrayCreationExpression | arrayElementInitializer | byRef
  | anonymousFunction | anonymousFunctionUseClause | arrowFunction | includeExpression
  | includeOnceExpression | requireExpression | requireOnceExpression | formalParameters
  | simpleParameter | variadicParameter | propertyPromotionParameter | namedType | primitiveType
  | optionalType | unionType | intersectionType | attributeList | attributeGroup | attributeUse
  | referenceModifier | visibilityModifier | staticModifier | finalModifier | abstractModifier
  | readonlyModifier | varModifier | emptyStatement | compoundStatement | namedLabelStatement
  | expressionStatement | ifStatement | elseIfClause | elseClause | colonBlock | switchStatement
  | switchBlock | caseStatement | defaultStatement | whileStatement | doStatement | forStatement
  | foreachStatement | pair | gotoStatement | continueStatement | breakStatement
  | returnStatement | tryStatement | catchClause | typeList | finallyClause | declareStatement
  | declareDirective | echoStatement | exitStatement | unsetStatement | constDeclaration
  | constElement | functionDefinition | functionStaticDeclaration | staticVariableDeclaration
  | globalDeclaration | namespaceDefinition | namespaceUseDeclaration | namespaceUseClause
  | namespaceUseGroup | classDeclaration | interfaceDeclaration | traitDeclaration
  | enumDeclaration | enumDeclarationList | enumCase | declarationList | baseClause
  | classInterfaceClause | methodDeclaration | propertyDeclaration | propertyElement
  | propertyHookList | propertyHook | useDeclaration | useList | useInsteadOfClause | useAsClause
  deriving DecidableEq, Repr, Inhabited

namespace Kind

/-- The name of a kind in reports. -/
def label : Kind → String
  | .token => ""
  | .program => "program"
  | .text => "text"
  | .phpTag => "php_tag"
  | .textInterpolation => "text_interpolation"
  | .comment => "comment"
  | .error => "ERROR"
  | .name => "name"
  | .qualifiedName => "qualified_name"
  | .relativeName => "relative_name"
  | .relativeScope => "relative_scope"
  | .namespaceName => "namespace_name"
  | .variableName => "variable_name"
  | .dynamicVariableName => "dynamic_variable_name"
  | .integer => "integer"
  | .float => "float"
  | .boolean => "boolean"
  | .null => "null"
  | .string => "string"
  | .encapsedString => "encapsed_string"
  | .heredoc => "heredoc"
  | .nowdoc => "nowdoc"
  | .stringContent => "string_content"
  | .heredocBody => "heredoc_body"
  | .nowdocBody => "nowdoc_body"
  | .shellCommandExpression => "shell_command_expression"
  | .arguments => "arguments"
  | .argument => "argument"
  | .variadicPlaceholder => "variadic_placeholder"
  | .variadicUnpacking => "variadic_unpacking"
  | .functionCallExpression => "function_call_expression"
  | .memberCallExpression => "member_call_expression"
  | .nullsafeMemberCallExpression => "nullsafe_member_call_expression"
  | .memberAccessExpression => "member_access_expression"
  | .nullsafeMemberAccessExpression => "nullsafe_member_access_expression"
  | .scopedCallExpression => "scoped_call_expression"
  | .scopedPropertyAccessExpression => "scoped_property_access_expression"
  | .classConstantAccessExpression => "class_constant_access_expression"
  | .subscriptExpression => "subscript_expression"
  | .objectCreationExpression => "object_creation_expression"
  | .anonymousClass => "anonymous_class"
  | .binaryExpression => "binary_expression"
  | .unaryOpExpression => "unary_op_expression"
  | .updateExpression => "update_expression"
  | .errorSuppressionExpression => "error_suppression_expression"
  | .cloneExpression => "clone_expression"
  | .printIntrinsic => "print_intrinsic"
  | .throwExpression => "throw_expression"
  | .castExpression => "cast_expression"
  | .castType => "cast_type"
  | .conditionalExpression => "conditional_expression"
  | .matchExpression => "match_expression"
  | .matchBlock => "match_block"
  | .matchConditionalExpression => "match_conditional_expression"
  | .matchDefaultExpression => "match_default_expression"
  | .matchConditionList => "match_condition_list"
  | .assignmentExpression => "assignment_expression"
  | .referenceAssignmentExpression => "reference_assignment_expression"
  | .augmentedAssignmentExpression => "augmented_assignment_expression"
  | .listLiteral => "list_literal"
  | .yieldExpression => "yield_expression"
  | .parenthesizedExpression => "parenthesized_expression"
  | .sequenceExpression => "sequence_expression"
  | .arrayCreationExpression => "array_creation_expression"
  | .arrayElementInitializer => "array_element_initializer"
  | .byRef => "by_ref"
  | .anonymousFunction => "anonymous_function"
  | .anonymousFunctionUseClause => "anonymous_function_use_clause"
  | .arrowFunction => "arrow_function"
  | .includeExpression => "include_expression"
  | .includeOnceExpression => "include_once_expression"
  | .requireExpression => "require_expression"
  | .requireOnceExpression => "require_once_expression"
  | .formalParameters => "formal_parameters"
  | .simpleParameter => "simple_parameter"
  | .variadicParameter => "variadic_parameter"
  | .propertyPromotionParameter => "property_promotion_parameter"
  | .namedType => "named_type"
  | .primitiveType => "primitive_type"
  | .optionalType => "optional_type"
  | .unionType => "union_type"
  | .intersectionType => "intersection_type"
  | .attributeList => "attribute_list"
  | .attributeGroup => "attribute_group"
  | .attributeUse => "attribute"
  | .referenceModifier => "reference_modifier"
  | .visibilityModifier => "visibility_modifier"
  | .staticModifier => "static_modifier"
  | .finalModifier => "final_modifier"
  | .abstractModifier => "abstract_modifier"
  | .readonlyModifier => "readonly_modifier"
  | .varModifier => "var_modifier"
  | .emptyStatement => "empty_statement"
  | .compoundStatement => "compound_statement"
  | .namedLabelStatement => "named_label_statement"
  | .expressionStatement => "expression_statement"
  | .ifStatement => "if_statement"
  | .elseIfClause => "else_if_clause"
  | .elseClause => "else_clause"
  | .colonBlock => "colon_block"
  | .switchStatement => "switch_statement"
  | .switchBlock => "switch_block"
  | .caseStatement => "case_statement"
  | .defaultStatement => "default_statement"
  | .whileStatement => "while_statement"
  | .doStatement => "do_statement"
  | .forStatement => "for_statement"
  | .foreachStatement => "foreach_statement"
  | .pair => "pair"
  | .gotoStatement => "goto_statement"
  | .continueStatement => "continue_statement"
  | .breakStatement => "break_statement"
  | .returnStatement => "return_statement"
  | .tryStatement => "try_statement"
  | .catchClause => "catch_clause"
  | .typeList => "type_list"
  | .finallyClause => "finally_clause"
  | .declareStatement => "declare_statement"
  | .declareDirective => "declare_directive"
  | .echoStatement => "echo_statement"
  | .exitStatement => "exit_statement"
  | .unsetStatement => "unset_statement"
  | .constDeclaration => "const_declaration"
  | .constElement => "const_element"
  | .functionDefinition => "function_definition"
  | .functionStaticDeclaration => "function_static_declaration"
  | .staticVariableDeclaration => "static_variable_declaration"
  | .globalDeclaration => "global_declaration"
  | .namespaceDefinition => "namespace_definition"
  | .namespaceUseDeclaration => "namespace_use_declaration"
  | .namespaceUseClause => "namespace_use_clause"
  | .namespaceUseGroup => "namespace_use_group"
  | .classDeclaration => "class_declaration"
  | .interfaceDeclaration => "interface_declaration"
  | .traitDeclaration => "trait_declaration"
  | .enumDeclaration => "enum_declaration"
  | .enumDeclarationList => "enum_declaration_list"
  | .enumCase => "enum_case"
  | .declarationList => "declaration_list"
  | .baseClause => "base_clause"
  | .classInterfaceClause => "class_interface_clause"
  | .methodDeclaration => "method_declaration"
  | .propertyDeclaration => "property_declaration"
  | .propertyElement => "property_element"
  | .propertyHookList => "property_hook_list"
  | .propertyHook => "property_hook"
  | .useDeclaration => "use_declaration"
  | .useList => "use_list"
  | .useInsteadOfClause => "use_instead_of_clause"
  | .useAsClause => "use_as_clause"

def isNamed (k : Kind) : Bool :=
  k != .token

/-- Named declarations that hold methods. -/
def isClassLike : Kind → Bool
  | .classDeclaration | .traitDeclaration | .enumDeclaration | .interfaceDeclaration => true
  | _ => false

def isClosure : Kind → Bool
  | .anonymousFunction | .arrowFunction => true
  | _ => false

/-- Definitions with a body of their own. -/
def isFunctionLike : Kind → Bool
  | .functionDefinition | .methodDeclaration => true
  | k => k.isClosure

def isString : Kind → Bool
  | .string | .encapsedString | .heredoc | .nowdoc => true
  | _ => false

/-- Names of functions, classes and constants. -/
def isName : Kind → Bool
  | .name | .qualifiedName | .relativeName => true
  | _ => false

/-- Kinds whose name ends in `_expression`, and plain variables: code inside a string. -/
def isInterpolation (k : Kind) : Bool :=
  k == .variableName || "_expression".toList.isSuffixOf k.label.toList

end Kind

/-- The part that a child plays in its parent. -/
inductive Role where
  | callee | arguments | object | name | scope | left | operator | right | body | type | value
  deriving DecidableEq, Repr, Inhabited

end PluginAudit.Php
