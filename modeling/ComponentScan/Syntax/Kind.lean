/-!
# Kinds of syntax nodes

The kinds of nodes of a TypeScript program with JSX, with the few facts about a node that its
children do not show: decoded names and string values, and which form of a construct was written.
-/

namespace ComponentScan.Syntax

/-- The word that introduces a declaration of variables. -/
inductive Binder
  | var | letWord | const | using
  deriving Repr, DecidableEq, Inhabited

/-- What a method of a class is. -/
inductive MethodRole
  | constructor | method | getter | setter
  deriving Repr, DecidableEq, Inhabited

/-- The kinds of nodes. Names and string values are decoded; `declares` tells a function or class
declaration from an expression, `typeOnly` is set by the word `type` on an import or export,
`coalesces` by the operator `??`, `plain` by the operator `=`, `beforeComma` by a comma after the
element. -/
inductive Kind
  | program | identifierName (name : String) | identifierReference (name : String)
  | bindingIdentifier (name : String) | labelIdentifier (name : String) | thisExpression
  | arrayExpression | elision | objectExpression | objectProperty | templateLiteral
  | taggedTemplateExpression | templateElement | computedMemberExpression | staticMemberExpression
  | privateFieldExpression | callExpression | newExpression | metaProperty
  | spreadElement (beforeComma : Bool) | updateExpression | unaryExpression | binaryExpression
  | privateInExpression | logicalExpression (coalesces : Bool) | conditionalExpression
  | assignmentExpression (plain : Bool) | arrayAssignmentTarget | objectAssignmentTarget
  | assignmentTargetRest | assignmentTargetWithDefault | assignmentTargetPropertyIdentifier
  | assignmentTargetPropertyProperty | sequenceExpression | super | awaitExpression
  | chainExpression | parenthesizedExpression | directive | hashbang | blockStatement
  | variableDeclaration (binder : Binder) | variableDeclarator | emptyStatement
  | expressionStatement | ifStatement | doWhileStatement | whileStatement | forStatement
  | forInStatement | forOfStatement | continueStatement | breakStatement | returnStatement
  | withStatement | switchStatement | switchCase | labeledStatement | throwStatement | tryStatement
  | catchClause | catchParameter | debuggerStatement | assignmentPattern | objectPattern
  | bindingProperty | arrayPattern | bindingRestElement | function (declares : Bool)
  | formalParameters | formalParameter | formalParameterRest | functionBody
  | arrowFunctionExpression | yieldExpression | classNode (declares : Bool) | classBody
  | methodDefinition (role : MethodRole) (isStatic : Bool) | propertyDefinition (isStatic : Bool)
  | privateIdentifier (name : String) | staticBlock | accessorProperty | importExpression
  | importDeclaration (typeOnly : Bool) | importSpecifier (typeOnly : Bool)
  | importDefaultSpecifier | importNamespaceSpecifier | withClause | importAttribute
  | exportNamedDeclaration (typeOnly : Bool) | exportDefaultDeclaration | exportAllDeclaration
  | exportSpecifier (typeOnly : Bool) | v8IntrinsicExpression | booleanLiteral | nullLiteral
  | numericLiteral | stringLiteral (value : String) | bigIntLiteral | regExpLiteral | jsxElement
  | jsxOpeningElement | jsxClosingElement | jsxFragment | jsxOpeningFragment | jsxClosingFragment
  | jsxNamespacedName | jsxMemberExpression | jsxExpressionContainer | jsxEmptyExpression
  | jsxAttribute | jsxSpreadAttribute | jsxIdentifier (name : String) | jsxSpreadChild | jsxText
  | tsThisParameter | tsEnumDeclaration | tsEnumBody | tsEnumMember | tsTypeAscription
  | tsLiteralType | tsConditionalType | tsUnionType | tsIntersectionType | tsParenthesizedType
  | tsTypeOperator | tsArrayType | tsIndexedAccessType | tsTupleType | tsNamedTupleMember
  | tsOptionalType | tsRestType | tsAnyKeyword | tsStringKeyword | tsBooleanKeyword
  | tsNumberKeyword | tsNeverKeyword | tsIntrinsicKeyword | tsUnknownKeyword | tsNullKeyword
  | tsUndefinedKeyword | tsVoidKeyword | tsSymbolKeyword | tsThisType | tsObjectKeyword
  | tsBigIntKeyword | tsTypeReference | tsQualifiedName | tsTypeParameterInstantiation
  | tsTypeParameter | tsTypeParameterDeclaration | tsTypeAliasDeclaration | tsClassImplements
  | tsInterfaceDeclaration | tsInterfaceBody | tsPropertySignature | tsIndexSignature
  | tsCallSignatureDeclaration | tsMethodSignature | tsConstructSignatureDeclaration
  | tsIndexSignatureName | tsInterfaceHeritage | tsTypePredicate | tsModuleDeclaration
  | tsGlobalDeclaration | tsModuleBlock | tsTypeLiteral | tsInferType | tsTypeQuery | tsImportType
  | tsImportTypeQualifiedName | tsFunctionType | tsConstructorType | tsMappedType
  | tsTemplateLiteralType | tsAsExpression | tsSatisfiesExpression | tsTypeAssertion
  | tsImportEqualsDeclaration (typeOnly : Bool) | tsExternalModuleReference | tsNonNullExpression
  | decorator | tsExportAssignment | tsNamespaceExportDeclaration | tsInstantiationExpression
  | jsdocNullableType | jsdocNonNullableType | jsdocUnknownType
  deriving Inhabited

namespace Kind

/-- The name of a kind. -/
def name : Kind → String
  | .program => "Program"
  | .identifierName .. => "IdentifierName"
  | .identifierReference .. => "IdentifierReference"
  | .bindingIdentifier .. => "BindingIdentifier"
  | .labelIdentifier .. => "LabelIdentifier"
  | .thisExpression => "ThisExpression"
  | .arrayExpression => "ArrayExpression"
  | .elision => "Elision"
  | .objectExpression => "ObjectExpression"
  | .objectProperty => "ObjectProperty"
  | .templateLiteral => "TemplateLiteral"
  | .taggedTemplateExpression => "TaggedTemplateExpression"
  | .templateElement => "TemplateElement"
  | .computedMemberExpression => "ComputedMemberExpression"
  | .staticMemberExpression => "StaticMemberExpression"
  | .privateFieldExpression => "PrivateFieldExpression"
  | .callExpression => "CallExpression"
  | .newExpression => "NewExpression"
  | .metaProperty => "MetaProperty"
  | .spreadElement .. => "SpreadElement"
  | .updateExpression => "UpdateExpression"
  | .unaryExpression => "UnaryExpression"
  | .binaryExpression => "BinaryExpression"
  | .privateInExpression => "PrivateInExpression"
  | .logicalExpression .. => "LogicalExpression"
  | .conditionalExpression => "ConditionalExpression"
  | .assignmentExpression .. => "AssignmentExpression"
  | .arrayAssignmentTarget => "ArrayAssignmentTarget"
  | .objectAssignmentTarget => "ObjectAssignmentTarget"
  | .assignmentTargetRest => "AssignmentTargetRest"
  | .assignmentTargetWithDefault => "AssignmentTargetWithDefault"
  | .assignmentTargetPropertyIdentifier => "AssignmentTargetPropertyIdentifier"
  | .assignmentTargetPropertyProperty => "AssignmentTargetPropertyProperty"
  | .sequenceExpression => "SequenceExpression"
  | .super => "Super"
  | .awaitExpression => "AwaitExpression"
  | .chainExpression => "ChainExpression"
  | .parenthesizedExpression => "ParenthesizedExpression"
  | .directive => "Directive"
  | .hashbang => "Hashbang"
  | .blockStatement => "BlockStatement"
  | .variableDeclaration .. => "VariableDeclaration"
  | .variableDeclarator => "VariableDeclarator"
  | .emptyStatement => "EmptyStatement"
  | .expressionStatement => "ExpressionStatement"
  | .ifStatement => "IfStatement"
  | .doWhileStatement => "DoWhileStatement"
  | .whileStatement => "WhileStatement"
  | .forStatement => "ForStatement"
  | .forInStatement => "ForInStatement"
  | .forOfStatement => "ForOfStatement"
  | .continueStatement => "ContinueStatement"
  | .breakStatement => "BreakStatement"
  | .returnStatement => "ReturnStatement"
  | .withStatement => "WithStatement"
  | .switchStatement => "SwitchStatement"
  | .switchCase => "SwitchCase"
  | .labeledStatement => "LabeledStatement"
  | .throwStatement => "ThrowStatement"
  | .tryStatement => "TryStatement"
  | .catchClause => "CatchClause"
  | .catchParameter => "CatchParameter"
  | .debuggerStatement => "DebuggerStatement"
  | .assignmentPattern => "AssignmentPattern"
  | .objectPattern => "ObjectPattern"
  | .bindingProperty => "BindingProperty"
  | .arrayPattern => "ArrayPattern"
  | .bindingRestElement => "BindingRestElement"
  | .function .. => "Function"
  | .formalParameters => "FormalParameters"
  | .formalParameter => "FormalParameter"
  | .formalParameterRest => "FormalParameterRest"
  | .functionBody => "FunctionBody"
  | .arrowFunctionExpression => "ArrowFunctionExpression"
  | .yieldExpression => "YieldExpression"
  | .classNode .. => "Class"
  | .classBody => "ClassBody"
  | .methodDefinition .. => "MethodDefinition"
  | .propertyDefinition .. => "PropertyDefinition"
  | .privateIdentifier .. => "PrivateIdentifier"
  | .staticBlock => "StaticBlock"
  | .accessorProperty => "AccessorProperty"
  | .importExpression => "ImportExpression"
  | .importDeclaration .. => "ImportDeclaration"
  | .importSpecifier .. => "ImportSpecifier"
  | .importDefaultSpecifier => "ImportDefaultSpecifier"
  | .importNamespaceSpecifier => "ImportNamespaceSpecifier"
  | .withClause => "WithClause"
  | .importAttribute => "ImportAttribute"
  | .exportNamedDeclaration .. => "ExportNamedDeclaration"
  | .exportDefaultDeclaration => "ExportDefaultDeclaration"
  | .exportAllDeclaration => "ExportAllDeclaration"
  | .exportSpecifier .. => "ExportSpecifier"
  | .v8IntrinsicExpression => "V8IntrinsicExpression"
  | .booleanLiteral => "BooleanLiteral"
  | .nullLiteral => "NullLiteral"
  | .numericLiteral => "NumericLiteral"
  | .stringLiteral .. => "StringLiteral"
  | .bigIntLiteral => "BigIntLiteral"
  | .regExpLiteral => "RegExpLiteral"
  | .jsxElement => "JSXElement"
  | .jsxOpeningElement => "JSXOpeningElement"
  | .jsxClosingElement => "JSXClosingElement"
  | .jsxFragment => "JSXFragment"
  | .jsxOpeningFragment => "JSXOpeningFragment"
  | .jsxClosingFragment => "JSXClosingFragment"
  | .jsxNamespacedName => "JSXNamespacedName"
  | .jsxMemberExpression => "JSXMemberExpression"
  | .jsxExpressionContainer => "JSXExpressionContainer"
  | .jsxEmptyExpression => "JSXEmptyExpression"
  | .jsxAttribute => "JSXAttribute"
  | .jsxSpreadAttribute => "JSXSpreadAttribute"
  | .jsxIdentifier .. => "JSXIdentifier"
  | .jsxSpreadChild => "JSXSpreadChild"
  | .jsxText => "JSXText"
  | .tsThisParameter => "TSThisParameter"
  | .tsEnumDeclaration => "TSEnumDeclaration"
  | .tsEnumBody => "TSEnumBody"
  | .tsEnumMember => "TSEnumMember"
  | .tsTypeAscription => "TSTypeAnnotation"
  | .tsLiteralType => "TSLiteralType"
  | .tsConditionalType => "TSConditionalType"
  | .tsUnionType => "TSUnionType"
  | .tsIntersectionType => "TSIntersectionType"
  | .tsParenthesizedType => "TSParenthesizedType"
  | .tsTypeOperator => "TSTypeOperator"
  | .tsArrayType => "TSArrayType"
  | .tsIndexedAccessType => "TSIndexedAccessType"
  | .tsTupleType => "TSTupleType"
  | .tsNamedTupleMember => "TSNamedTupleMember"
  | .tsOptionalType => "TSOptionalType"
  | .tsRestType => "TSRestType"
  | .tsAnyKeyword => "TSAnyKeyword"
  | .tsStringKeyword => "TSStringKeyword"
  | .tsBooleanKeyword => "TSBooleanKeyword"
  | .tsNumberKeyword => "TSNumberKeyword"
  | .tsNeverKeyword => "TSNeverKeyword"
  | .tsIntrinsicKeyword => "TSIntrinsicKeyword"
  | .tsUnknownKeyword => "TSUnknownKeyword"
  | .tsNullKeyword => "TSNullKeyword"
  | .tsUndefinedKeyword => "TSUndefinedKeyword"
  | .tsVoidKeyword => "TSVoidKeyword"
  | .tsSymbolKeyword => "TSSymbolKeyword"
  | .tsThisType => "TSThisType"
  | .tsObjectKeyword => "TSObjectKeyword"
  | .tsBigIntKeyword => "TSBigIntKeyword"
  | .tsTypeReference => "TSTypeReference"
  | .tsQualifiedName => "TSQualifiedName"
  | .tsTypeParameterInstantiation => "TSTypeParameterInstantiation"
  | .tsTypeParameter => "TSTypeParameter"
  | .tsTypeParameterDeclaration => "TSTypeParameterDeclaration"
  | .tsTypeAliasDeclaration => "TSTypeAliasDeclaration"
  | .tsClassImplements => "TSClassImplements"
  | .tsInterfaceDeclaration => "TSInterfaceDeclaration"
  | .tsInterfaceBody => "TSInterfaceBody"
  | .tsPropertySignature => "TSPropertySignature"
  | .tsIndexSignature => "TSIndexSignature"
  | .tsCallSignatureDeclaration => "TSCallSignatureDeclaration"
  | .tsMethodSignature => "TSMethodSignature"
  | .tsConstructSignatureDeclaration => "TSConstructSignatureDeclaration"
  | .tsIndexSignatureName => "TSIndexSignatureName"
  | .tsInterfaceHeritage => "TSInterfaceHeritage"
  | .tsTypePredicate => "TSTypePredicate"
  | .tsModuleDeclaration => "TSModuleDeclaration"
  | .tsGlobalDeclaration => "TSGlobalDeclaration"
  | .tsModuleBlock => "TSModuleBlock"
  | .tsTypeLiteral => "TSTypeLiteral"
  | .tsInferType => "TSInferType"
  | .tsTypeQuery => "TSTypeQuery"
  | .tsImportType => "TSImportType"
  | .tsImportTypeQualifiedName => "TSImportTypeQualifiedName"
  | .tsFunctionType => "TSFunctionType"
  | .tsConstructorType => "TSConstructorType"
  | .tsMappedType => "TSMappedType"
  | .tsTemplateLiteralType => "TSTemplateLiteralType"
  | .tsAsExpression => "TSAsExpression"
  | .tsSatisfiesExpression => "TSSatisfiesExpression"
  | .tsTypeAssertion => "TSTypeAssertion"
  | .tsImportEqualsDeclaration .. => "TSImportEqualsDeclaration"
  | .tsExternalModuleReference => "TSExternalModuleReference"
  | .tsNonNullExpression => "TSNonNullExpression"
  | .decorator => "Decorator"
  | .tsExportAssignment => "TSExportAssignment"
  | .tsNamespaceExportDeclaration => "TSNamespaceExportDeclaration"
  | .tsInstantiationExpression => "TSInstantiationExpression"
  | .jsdocNullableType => "JSDocNullableType"
  | .jsdocNonNullableType => "JSDocNonNullableType"
  | .jsdocUnknownType => "JSDocUnknownType"

end Kind

end ComponentScan.Syntax
