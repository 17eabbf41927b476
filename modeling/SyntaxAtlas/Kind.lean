/-!
Kinds of syntax.

Every node carries one kind out of a closed list. A grammar kind, the name a parser gives to an
element, is classified by a table; a name the table does not know becomes `unclassified`, and the
element keeps its own name. Each kind has a stable tag, which is what people type and read.
-/
namespace SyntaxAtlas

/-- What a node is. The first two kinds stand for no grammar kind: the root over the units of a
package, and an element whose grammar kind has no classification. -/
inductive Kind where
  | package
  | unclassified
  | sourceFile
  | packageClause
  | comment
  | bad
  | identifier
  | typeIdentifier
  | fieldIdentifier
  | packageIdentifier
  | labelName
  | blankIdentifier
  | dot
  | importDecl
  | importSpec
  | importSpecList
  | funcDecl
  | methodDecl
  | parameterList
  | parameter
  | variadicParameter
  | typeParameterList
  | typeParameter
  | varDecl
  | varSpec
  | varSpecList
  | constDecl
  | constSpec
  | typeDecl
  | typeSpec
  | typeAlias
  | block
  | statementList
  | expressionList
  | shortVarDecl
  | assignStmt
  | incStmt
  | decStmt
  | exprStmt
  | sendStmt
  | receiveStmt
  | goStmt
  | deferStmt
  | returnStmt
  | ifStmt
  | forStmt
  | forClause
  | rangeClause
  | switchStmt
  | typeSwitchStmt
  | caseClause
  | defaultCase
  | selectStmt
  | commClause
  | labeledStmt
  | breakStmt
  | continueStmt
  | gotoStmt
  | fallthroughStmt
  | emptyStmt
  | callExpr
  | argumentList
  | conversionExpr
  | selectorExpr
  | indexExpr
  | sliceExpr
  | typeAssertExpr
  | unaryExpr
  | binaryExpr
  | parenExpr
  | compositeLit
  | literalValue
  | literalElement
  | keyedElement
  | funcLit
  | variadicArgument
  | typeInstantiation
  | intLit
  | floatLit
  | imaginaryLit
  | runeLit
  | stringLit
  | stringContent
  | escapeSequence
  | nilLit
  | trueLit
  | falseLit
  | iota
  | pointerType
  | arrayType
  | sliceType
  | mapType
  | chanType
  | funcType
  | structType
  | fieldList
  | field
  | interfaceType
  | methodElem
  | typeElem
  | qualifiedType
  | genericType
  | typeArguments
  | parenType
  | negatedType
deriving DecidableEq, Repr, Inhabited

namespace Kind

/-- Every kind, in the order that numbers them. -/
def all : List Kind :=
  [.package, .unclassified, .sourceFile, .packageClause, .comment, .bad, .identifier,
   .typeIdentifier, .fieldIdentifier, .packageIdentifier, .labelName, .blankIdentifier, .dot,
   .importDecl, .importSpec, .importSpecList, .funcDecl, .methodDecl, .parameterList, .parameter,
   .variadicParameter, .typeParameterList, .typeParameter, .varDecl, .varSpec, .varSpecList,
   .constDecl, .constSpec, .typeDecl, .typeSpec, .typeAlias, .block, .statementList,
   .expressionList, .shortVarDecl, .assignStmt, .incStmt, .decStmt, .exprStmt, .sendStmt,
   .receiveStmt, .goStmt, .deferStmt, .returnStmt, .ifStmt, .forStmt, .forClause, .rangeClause,
   .switchStmt, .typeSwitchStmt, .caseClause, .defaultCase, .selectStmt, .commClause,
   .labeledStmt, .breakStmt, .continueStmt, .gotoStmt, .fallthroughStmt, .emptyStmt, .callExpr,
   .argumentList, .conversionExpr, .selectorExpr, .indexExpr, .sliceExpr, .typeAssertExpr,
   .unaryExpr, .binaryExpr, .parenExpr, .compositeLit, .literalValue, .literalElement,
   .keyedElement, .funcLit, .variadicArgument, .typeInstantiation, .intLit, .floatLit,
   .imaginaryLit, .runeLit, .stringLit, .stringContent, .escapeSequence, .nilLit, .trueLit,
   .falseLit, .iota, .pointerType, .arrayType, .sliceType, .mapType, .chanType, .funcType,
   .structType, .fieldList, .field, .interfaceType, .methodElem, .typeElem, .qualifiedType,
   .genericType, .typeArguments, .parenType, .negatedType]

/-- The stable tag of a kind. -/
def tag : Kind → String
  | .package => "package"
  | .unclassified => "unclassified"
  | .sourceFile => "file"
  | .packageClause => "package-clause"
  | .comment => "comment"
  | .bad => "bad"
  | .identifier => "identifier"
  | .typeIdentifier => "type-identifier"
  | .fieldIdentifier => "field-identifier"
  | .packageIdentifier => "package-identifier"
  | .labelName => "label-name"
  | .blankIdentifier => "blank-identifier"
  | .dot => "dot"
  | .importDecl => "import-declaration"
  | .importSpec => "import-spec"
  | .importSpecList => "import-spec-list"
  | .funcDecl => "function-declaration"
  | .methodDecl => "method-declaration"
  | .parameterList => "parameter-list"
  | .parameter => "parameter"
  | .variadicParameter => "variadic-parameter"
  | .typeParameterList => "type-parameter-list"
  | .typeParameter => "type-parameter"
  | .varDecl => "var-declaration"
  | .varSpec => "var-spec"
  | .varSpecList => "var-spec-list"
  | .constDecl => "const-declaration"
  | .constSpec => "const-spec"
  | .typeDecl => "type-declaration"
  | .typeSpec => "type-spec"
  | .typeAlias => "type-alias"
  | .block => "block"
  | .statementList => "statement-list"
  | .expressionList => "expression-list"
  | .shortVarDecl => "short-var-declaration"
  | .assignStmt => "assignment-statement"
  | .incStmt => "inc-statement"
  | .decStmt => "dec-statement"
  | .exprStmt => "expression-statement"
  | .sendStmt => "send-statement"
  | .receiveStmt => "receive-statement"
  | .goStmt => "go-statement"
  | .deferStmt => "defer-statement"
  | .returnStmt => "return-statement"
  | .ifStmt => "if-statement"
  | .forStmt => "for-statement"
  | .forClause => "for-clause"
  | .rangeClause => "range-clause"
  | .switchStmt => "switch-statement"
  | .typeSwitchStmt => "type-switch-statement"
  | .caseClause => "case-clause"
  | .defaultCase => "default-case"
  | .selectStmt => "select-statement"
  | .commClause => "communication-case"
  | .labeledStmt => "labeled-statement"
  | .breakStmt => "break-statement"
  | .continueStmt => "continue-statement"
  | .gotoStmt => "goto-statement"
  | .fallthroughStmt => "fallthrough-statement"
  | .emptyStmt => "empty-statement"
  | .callExpr => "call-expression"
  | .argumentList => "argument-list"
  | .conversionExpr => "conversion-expression"
  | .selectorExpr => "selector-expression"
  | .indexExpr => "index-expression"
  | .sliceExpr => "slice-expression"
  | .typeAssertExpr => "type-assertion"
  | .unaryExpr => "unary-expression"
  | .binaryExpr => "binary-expression"
  | .parenExpr => "parenthesized-expression"
  | .compositeLit => "composite-literal"
  | .literalValue => "literal-value"
  | .literalElement => "literal-element"
  | .keyedElement => "keyed-element"
  | .funcLit => "function-literal"
  | .variadicArgument => "variadic-argument"
  | .typeInstantiation => "type-instantiation"
  | .intLit => "int-literal"
  | .floatLit => "float-literal"
  | .imaginaryLit => "imaginary-literal"
  | .runeLit => "rune-literal"
  | .stringLit => "string-literal"
  | .stringContent => "string-content"
  | .escapeSequence => "escape-sequence"
  | .nilLit => "nil"
  | .trueLit => "true"
  | .falseLit => "false"
  | .iota => "iota"
  | .pointerType => "pointer-type"
  | .arrayType => "array-type"
  | .sliceType => "slice-type"
  | .mapType => "map-type"
  | .chanType => "channel-type"
  | .funcType => "function-type"
  | .structType => "struct-type"
  | .fieldList => "field-list"
  | .field => "field"
  | .interfaceType => "interface-type"
  | .methodElem => "method-element"
  | .typeElem => "type-element"
  | .qualifiedType => "qualified-type"
  | .genericType => "generic-type"
  | .typeArguments => "type-arguments"
  | .parenType => "parenthesized-type"
  | .negatedType => "negated-type"

/-- The grammar kinds that a kind stands for. -/
def grammarKinds : Kind → List String
  | .sourceFile => ["source_file"]
  | .packageClause => ["package_clause"]
  | .comment => ["comment"]
  | .bad => ["ERROR"]
  | .identifier => ["identifier"]
  | .typeIdentifier => ["type_identifier"]
  | .fieldIdentifier => ["field_identifier"]
  | .packageIdentifier => ["package_identifier"]
  | .labelName => ["label_name"]
  | .blankIdentifier => ["blank_identifier"]
  | .dot => ["dot"]
  | .importDecl => ["import_declaration"]
  | .importSpec => ["import_spec"]
  | .importSpecList => ["import_spec_list"]
  | .funcDecl => ["function_declaration"]
  | .methodDecl => ["method_declaration"]
  | .parameterList => ["parameter_list"]
  | .parameter => ["parameter_declaration"]
  | .variadicParameter => ["variadic_parameter_declaration"]
  | .typeParameterList => ["type_parameter_list"]
  | .typeParameter => ["type_parameter_declaration"]
  | .varDecl => ["var_declaration"]
  | .varSpec => ["var_spec"]
  | .varSpecList => ["var_spec_list"]
  | .constDecl => ["const_declaration"]
  | .constSpec => ["const_spec"]
  | .typeDecl => ["type_declaration"]
  | .typeSpec => ["type_spec"]
  | .typeAlias => ["type_alias"]
  | .block => ["block"]
  | .statementList => ["statement_list"]
  | .expressionList => ["expression_list"]
  | .shortVarDecl => ["short_var_declaration"]
  | .assignStmt => ["assignment_statement"]
  | .incStmt => ["inc_statement"]
  | .decStmt => ["dec_statement"]
  | .exprStmt => ["expression_statement"]
  | .sendStmt => ["send_statement"]
  | .receiveStmt => ["receive_statement"]
  | .goStmt => ["go_statement"]
  | .deferStmt => ["defer_statement"]
  | .returnStmt => ["return_statement"]
  | .ifStmt => ["if_statement"]
  | .forStmt => ["for_statement"]
  | .forClause => ["for_clause"]
  | .rangeClause => ["range_clause"]
  | .switchStmt => ["expression_switch_statement"]
  | .typeSwitchStmt => ["type_switch_statement"]
  | .caseClause => ["expression_case", "type_case"]
  | .defaultCase => ["default_case"]
  | .selectStmt => ["select_statement"]
  | .commClause => ["communication_case"]
  | .labeledStmt => ["labeled_statement"]
  | .breakStmt => ["break_statement"]
  | .continueStmt => ["continue_statement"]
  | .gotoStmt => ["goto_statement"]
  | .fallthroughStmt => ["fallthrough_statement"]
  | .emptyStmt => ["empty_statement"]
  | .callExpr => ["call_expression"]
  | .argumentList => ["argument_list"]
  | .conversionExpr => ["type_conversion_expression"]
  | .selectorExpr => ["selector_expression"]
  | .indexExpr => ["index_expression"]
  | .sliceExpr => ["slice_expression"]
  | .typeAssertExpr => ["type_assertion_expression"]
  | .unaryExpr => ["unary_expression"]
  | .binaryExpr => ["binary_expression"]
  | .parenExpr => ["parenthesized_expression"]
  | .compositeLit => ["composite_literal"]
  | .literalValue => ["literal_value"]
  | .literalElement => ["literal_element"]
  | .keyedElement => ["keyed_element"]
  | .funcLit => ["func_literal"]
  | .variadicArgument => ["variadic_argument"]
  | .typeInstantiation => ["type_instantiation_expression"]
  | .intLit => ["int_literal"]
  | .floatLit => ["float_literal"]
  | .imaginaryLit => ["imaginary_literal"]
  | .runeLit => ["rune_literal"]
  | .stringLit => ["interpreted_string_literal", "raw_string_literal"]
  | .stringContent => ["interpreted_string_literal_content", "raw_string_literal_content"]
  | .escapeSequence => ["escape_sequence"]
  | .nilLit => ["nil"]
  | .trueLit => ["true"]
  | .falseLit => ["false"]
  | .iota => ["iota"]
  | .pointerType => ["pointer_type"]
  | .arrayType => ["array_type", "implicit_length_array_type"]
  | .sliceType => ["slice_type"]
  | .mapType => ["map_type"]
  | .chanType => ["channel_type"]
  | .funcType => ["function_type"]
  | .structType => ["struct_type"]
  | .fieldList => ["field_declaration_list"]
  | .field => ["field_declaration"]
  | .interfaceType => ["interface_type"]
  | .methodElem => ["method_elem", "method_spec"]
  | .typeElem => ["type_elem", "constraint_elem"]
  | .qualifiedType => ["qualified_type"]
  | .genericType => ["generic_type"]
  | .typeArguments => ["type_arguments"]
  | .parenType => ["parenthesized_type"]
  | .negatedType => ["negated_type"]
  | .package | .unclassified => []

/-- The kind that stands for a grammar kind, `unclassified` when none does. -/
def classify (grammarKind : String) : Kind :=
  (all.find? fun kind => kind.grammarKinds.contains grammarKind).getD .unclassified

theorem mem_grammarKinds_of_classify {grammarKind : String}
    (known : classify grammarKind ≠ .unclassified) :
    grammarKind ∈ (classify grammarKind).grammarKinds := by
  unfold classify at known ⊢
  cases hFound : all.find? fun kind => kind.grammarKinds.contains grammarKind with
  | none =>
      rw [hFound] at known
      exact absurd rfl known
  | some kind => simpa using List.find?_some hFound

/-- A kind with one grammar kind stands for nothing else. -/
theorem classify_eq_iff {kind : Kind} {word grammarKind : String}
    (only : kind.grammarKinds = [word]) (self : classify word = kind) :
    classify grammarKind = kind ↔ grammarKind = word := by
  constructor
  · rintro rfl
    have hKnown : classify grammarKind ≠ .unclassified := by
      intro hNone
      rw [hNone] at only
      cases only
    have hMember := mem_grammarKinds_of_classify hKnown
    rwa [only, List.mem_singleton] at hMember
  · rintro rfl
    exact self

/-- The grammar has no word for a package. -/
theorem classify_ne_package (grammarKind : String) : classify grammarKind ≠ .package := by
  intro hPackage
  have hKnown : classify grammarKind ≠ .unclassified := by
    rw [hPackage]
    decide
  have hMember := mem_grammarKinds_of_classify hKnown
  rw [hPackage] at hMember
  cases hMember

/-- The kind with a given tag. -/
def ofTag? (tag : String) : Option Kind :=
  all.find? fun kind => kind.tag == tag

/-- The place of a kind in `all`. -/
def ordinal (kind : Kind) : Nat :=
  all.idxOf kind

/-- The refusal of a tag that no kind has. -/
def unknownTagMessage (tag : String) : String :=
  "unknown node kind tag: " ++ tag

/-- Leaves that can name an object or refer to one. -/
def isIdentifier : Kind → Bool
  | .identifier | .typeIdentifier | .fieldIdentifier | .packageIdentifier | .labelName => true
  | _ => false

/-- Expressions that invoke something: calls and conversions. -/
def isCall : Kind → Bool
  | .callExpr | .conversionExpr => true
  | _ => false

/-- Declarations of functions and methods. -/
def isFuncDeclaration : Kind → Bool
  | .funcDecl | .methodDecl => true
  | _ => false

/-- Declarations that may bind several names to one type. -/
def isSplittable : Kind → Bool
  | .parameter | .typeParameter | .field => true
  | _ => false

/-- Literals that carry a token of their own. -/
def isLiteral : Kind → Bool
  | .intLit | .floatLit | .imaginaryLit | .runeLit | .stringLit => true
  | _ => false

/-- Statements that jump. -/
def isBranch : Kind → Bool
  | .breakStmt | .continueStmt | .gotoStmt | .fallthroughStmt => true
  | _ => false

end Kind

end SyntaxAtlas
