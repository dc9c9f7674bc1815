/-
TableMapper.Generated.MapperFile — the text of a mapper's file, around
the parts that differ from mapper to mapper.
-/
import TableMapper.Text.Basic

namespace TableMapper

/-- The parts of a mapper's file, each as it is to stand in the file.
Two of them may be empty: the imports of providers and the entries for
generated fields. -/
structure MapperFile where
  name : String
  typeName : String
  uninitializedName : String
  generatedPartName : String
  itemSpecifier : String
  providerImports : String
  keyTypeName : String
  keyType : String
  indexNameType : String
  tableSchema : String
  itemSchema : String
  partialItemSchema : String
  generatedEntries : String

namespace MapperFile

/-! ## 1. Sections -/

/-- The import of the item types. -/
def itemImport (f : MapperFile) : List String :=
  ["import \x7b",
   "  " ++ f.typeName ++ ",",
   "  " ++ f.uninitializedName ++ ",",
   "  " ++ f.generatedPartName,
   "\x7d from '" ++ f.itemSpecifier ++ "';"]

/-- Everything above the class. -/
def preamble (f : MapperFile) : List String :=
  ["import \x7b DocumentClient \x7d from 'aws-sdk/clients/dynamodb';",
   "import * as Ajv from 'ajv';"]
  ++ (if f.providerImports.isEmpty then [] else [f.providerImports])
  ++ f.itemImport
  ++ ["",
   f.keyType,
   "",
   f.indexNameType,
   "",
   "export interface QueryOptions",
   "  extends Omit<DocumentClient.QueryInput, 'TableName' | 'IndexName'> \x7b",
   "  IndexName?: IndexName;",
   "\x7d",
   "",
   "const ajv = new Ajv(\x7b allErrors: true \x7d);",
   ""]

/-- The static members that describe the table and check its items. -/
def descriptions (f : MapperFile) : List String :=
  ["  static readonly tableSchema = " ++ f.tableSchema ++ ";",
   "",
   "  static readonly validateItem = ajv.compile(" ++ f.itemSchema ++ ");",
   "",
   "  static readonly validatePartialItem = ajv.compile(" ++ f.partialItemSchema ++ ");",
   "",
   "  static get tableName(): string \x7b",
   "    return " ++ f.name ++ ".tableSchema.TableName;",
   "  \x7d",
   ""]

/-- The constant that holds the generated fields. -/
def generatedConstant (f : MapperFile) : List String :=
  if f.generatedEntries.isEmpty then
    ["    const generated: " ++ f.generatedPartName ++ " = \x7b\x7d;"]
  else
    ["    const generated: " ++ f.generatedPartName ++ " = \x7b",
     f.generatedEntries,
     "    \x7d;"]

/-- The method that fills in generated fields, and the constructor. -/
def initializers (f : MapperFile) : List String :=
  ["  /**",
   "   * Fills in generated fields. Values supplied by the caller win.",
   "   */",
   "  static initialize(",
   "    item: " ++ f.uninitializedName,
   "  ): " ++ f.typeName ++ " \x7b"]
  ++ f.generatedConstant
  ++ ["    return \x7b ...generated, ...item \x7d as " ++ f.typeName ++ ";",
   "  \x7d",
   "",
   "  constructor(private readonly client: DocumentClient) \x7b\x7d",
   ""]

/-- The method that writes an item. -/
def putMethod (f : MapperFile) : List String :=
  ["  /**",
   "   * Validates and writes an item. Attributes computed by the server are not",
   "   * reflected in the returned item.",
   "   */",
   "  async put(",
   "    item: " ++ f.uninitializedName,
   "  ): Promise<" ++ f.typeName ++ "> \x7b",
   "    const initialized = " ++ f.name ++ ".initialize(item);",
   "    if (!" ++ f.name ++ ".validateItem(initialized)) \x7b",
   "      throw new Error(ajv.errorsText(" ++ f.name ++ ".validateItem.errors));",
   "    \x7d",
   "",
   "    await this.client",
   "      .put(\x7b TableName: " ++ f.name ++ ".tableName, Item: initialized \x7d)",
   "      .promise();",
   "",
   "    return initialized;",
   "  \x7d",
   ""]

/-- The method that reads an item. -/
def getMethod (f : MapperFile) : List String :=
  ["  async get(key: " ++ f.keyTypeName ++ "): Promise<" ++ f.typeName ++ "> \x7b",
   "    const \x7b Item \x7d = await this.client",
   "      .get(\x7b TableName: " ++ f.name ++ ".tableName, Key: key \x7d)",
   "      .promise();",
   "",
   "    if (!Item) \x7b",
   "      throw new Error('item not found in table ' + " ++ f.name ++ ".tableName);",
   "    \x7d",
   "",
   "    return Item as " ++ f.typeName ++ ";",
   "  \x7d",
   ""]

/-- The method that deletes an item. -/
def deleteMethod (f : MapperFile) : List String :=
  ["  async delete(",
   "    key: " ++ f.keyTypeName,
   "  ): Promise<" ++ f.typeName ++ " | undefined> \x7b",
   "    const \x7b Attributes \x7d = await this.client",
   "      .delete(\x7b",
   "        TableName: " ++ f.name ++ ".tableName,",
   "        Key: key,",
   "        ReturnValues: 'ALL_OLD'",
   "      \x7d)",
   "      .promise();",
   "",
   "    return Attributes as " ++ f.typeName ++ " | undefined;",
   "  \x7d",
   ""]

/-- The method that reads several items. -/
def queryMethod (f : MapperFile) : List String :=
  ["  async query(options: QueryOptions): Promise<" ++ f.typeName ++ "[]> \x7b",
   "    const \x7b Items = [] \x7d = await this.client",
   "      .query(\x7b ...options, TableName: " ++ f.name ++ ".tableName \x7d)",
   "      .promise();",
   "",
   "    return Items as " ++ f.typeName ++ "[];",
   "  \x7d",
   ""]

/-- The method that changes fields of an item. -/
def updateMethod (f : MapperFile) : List String :=
  ["  /**",
   "   * Applies `patch` and returns the previous item merged with it.",
   "   */",
   "  async update(",
   "    key: " ++ f.keyTypeName ++ ",",
   "    patch: Partial<" ++ f.typeName ++ ">",
   "  ): Promise<" ++ f.typeName ++ "> \x7b",
   "    if (!" ++ f.name ++ ".validatePartialItem(patch)) \x7b",
   "      throw new Error(ajv.errorsText(" ++ f.name ++ ".validatePartialItem.errors));",
   "    \x7d",
   "",
   "    const AttributeUpdates = Object.entries(patch).reduce<",
   "      DocumentClient.AttributeUpdates",
   "    >(",
   "      (updates, [attribute, Value]) => (\x7b",
   "        ...updates,",
   "        [attribute]: \x7b Action: 'PUT', Value \x7d",
   "      \x7d),",
   "      \x7b\x7d",
   "    );",
   "",
   "    const \x7b Attributes \x7d = await this.client",
   "      .update(\x7b",
   "        TableName: " ++ f.name ++ ".tableName,",
   "        Key: key,",
   "        AttributeUpdates,",
   "        ReturnValues: 'ALL_OLD'",
   "      \x7d)",
   "      .promise();",
   "",
   "    return \x7b ...Attributes, ...patch \x7d as " ++ f.typeName ++ ";",
   "  \x7d"]

/-! ## 2. The file -/

/-- The lines of the class. -/
def classLines (f : MapperFile) : List String :=
  ["export class " ++ f.name ++ " \x7b"] ++ f.descriptions ++ f.initializers ++ f.putMethod
    ++ f.getMethod ++ f.deleteMethod ++ f.queryMethod ++ f.updateMethod ++ ["\x7d"]

/-- The text of the file, whose last line is ended. -/
def text (f : MapperFile) : String :=
  String.join ((f.preamble ++ f.classLines).map (· ++ "\n"))

end MapperFile

end TableMapper
